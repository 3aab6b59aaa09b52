import Idsm.Android.Connection
import Idsm.Managerd.RegistrationProperties

/-! Credentials that expire while they are in use. -/

set_option autoImplicit false

namespace Idsm.Android

open Idsm.Foundation
open Idsm.Json (Value)
open Idsm.Managerd (Credentials CredentialFiles Registration RegistrationEvent TimedEvent
  TimedRegistration advanceResponse loopStep registrationStep scheduleRequest selectCredentials
  timedStep)

section Daemon

variable {parse : List UInt8 → Except (List UInt8) Value} {reg after : Registration}
  {timed later : TimedRegistration}

/-- The credentials in use are valid, or the next ones are asked for. -/
def Renews (timed : TimedRegistration) : Prop :=
  timed.reg.creds.validAt timed.nowSec ∨ timed.reg.state = .needRegister ∨
    timed.reg.state = .waiting

/-- The credentials that a step uses have not expired: those of a registered device when time
passes, and the new ones when they are adopted. -/
def UsesValid (timed : TimedRegistration) : TimedEvent → Prop
  | .clock nowSec => timed.reg.state = .registered → timed.reg.creds.validAt nowSec
  | .act .copy => timed.reg.pending.validAt timed.nowSec
  | .act _ => True

/-- What a step of either thread does to the state and the credentials. -/
inductive CredentialStep (reg after : Registration) : RegistrationEvent → Prop where
  | copied (registered : after.state = .registered) (creds : after.creds = reg.pending) :
      CredentialStep reg after .copy
  | kept {event : RegistrationEvent} (other : event ≠ .copy) (creds : after.creds = reg.creds)
      (state : after.state = reg.state ∨ after.state = .needRegister ∨ after.state = .waiting) :
      CredentialStep reg after event

theorem advanceResponse_kept (advanced : advanceResponse reg = some after) :
    after.creds = reg.creds ∧ after.state = reg.state := by
  have written : ∀ result next, (Managerd.writePending result next reg).creds = reg.creds ∧
      (Managerd.writePending result next reg).state = reg.state := by
    intro result next
    unfold Managerd.writePending
    split
    · exact ⟨rfl, rfl⟩
    · exact ⟨rfl, rfl⟩
  unfold advanceResponse at advanced
  split at advanced
  · cases advanced
  · cases advanced
    exact written _ _
  · cases advanced
    exact written _ _
  · cases advanced
    exact written _ _
  · cases advanced
    exact ⟨rfl, rfl⟩
  · cases advanced
    exact ⟨rfl, rfl⟩

theorem beginResponse_kept {payload : List UInt8} :
    (Managerd.beginResponse parse payload reg).creds = reg.creds ∧
      (Managerd.beginResponse parse payload reg).state = reg.state := by
  unfold Managerd.beginResponse
  split
  · exact ⟨rfl, rfl⟩
  · split
    · exact ⟨rfl, rfl⟩
    · exact ⟨rfl, rfl⟩
    · exact ⟨rfl, rfl⟩

theorem savePending_kept {env : Managerd.SaveStep → Fault} :
    (Managerd.savePending env reg).creds = reg.creds ∧
      (Managerd.savePending env reg).state = reg.state := by
  unfold Managerd.savePending
  split
  · exact ⟨rfl, rfl⟩
  · exact ⟨rfl, rfl⟩
  · exact ⟨rfl, rfl⟩

theorem scheduleRequest_kept {nowMs : Int} {connected sent : Bool} {rid : String} :
    (scheduleRequest nowMs connected rid sent reg).creds = reg.creds ∧
      ((scheduleRequest nowMs connected rid sent reg).state = reg.state ∨
        (scheduleRequest nowMs connected rid sent reg).state = .needRegister ∨
        (scheduleRequest nowMs connected rid sent reg).state = .waiting) := by
  unfold scheduleRequest
  split
  · split
    · exact ⟨rfl, .inr (.inr rfl)⟩
    · exact ⟨rfl, .inl rfl⟩
  · split
    · exact ⟨rfl, .inr (.inl rfl)⟩
    · exact ⟨rfl, .inl rfl⟩

theorem loopStep_credentials {event : RegistrationEvent}
    (stepped : loopStep parse reg event = some after) : CredentialStep reg after event := by
  cases event with
  | deliver payload =>
      rw [loopStep] at stepped
      split at stepped
      · cases stepped
        exact .kept (by rintro ⟨⟩) beginResponse_kept.1 (.inl beginResponse_kept.2)
      · cases stepped
  | advance =>
      obtain ⟨creds, state⟩ := advanceResponse_kept stepped
      exact .kept (by rintro ⟨⟩) creds (.inl state)
  | exchangeReady =>
      rw [loopStep, Option.ite_none_right_eq_some, Option.some.injEq] at stepped
      obtain ⟨-, rfl⟩ := stepped
      exact .kept (by rintro ⟨⟩) rfl (.inl rfl)
  | save env =>
      rw [loopStep, Option.ite_none_right_eq_some, Option.some.injEq] at stepped
      obtain ⟨-, rfl⟩ := stepped
      exact .kept (by rintro ⟨⟩) savePending_kept.1 (.inl savePending_kept.2)
  | updateCredentials reconnected =>
      rw [loopStep, Option.ite_none_right_eq_some, Option.some.injEq] at stepped
      obtain ⟨-, rfl⟩ := stepped
      exact .kept (by rintro ⟨⟩) rfl (.inl rfl)
  | copy =>
      rw [loopStep, Option.ite_none_right_eq_some, Option.some.injEq] at stepped
      obtain ⟨-, rfl⟩ := stepped
      exact .copied rfl rfl
  | fail nowMs =>
      rw [loopStep, Option.ite_none_right_eq_some, Option.some.injEq] at stepped
      obtain ⟨-, rfl⟩ := stepped
      exact .kept (by rintro ⟨⟩) rfl (.inr (.inl rfl))
  | reset =>
      rw [loopStep, Option.ite_none_right_eq_some, Option.some.injEq] at stepped
      obtain ⟨-, rfl⟩ := stepped
      exact .kept (by rintro ⟨⟩) rfl (.inl rfl)
  | schedule nowMs connected rid sent =>
      rw [loopStep, Option.ite_none_right_eq_some, Option.some.injEq] at stepped
      obtain ⟨-, rfl⟩ := stepped
      exact .kept (by rintro ⟨⟩) scheduleRequest_kept.1 scheduleRequest_kept.2

/-- Registration stays enabled. -/
def Enabled (timed : TimedRegistration) : Prop := timed.reg.state ≠ .disabled

theorem renews_iff (enabled : Enabled timed) :
    Renews timed ↔ (timed.reg.state = .registered → timed.reg.creds.validAt timed.nowSec) := by
  unfold Renews
  cases named : timed.reg.state with
  | disabled => exact absurd named enabled
  | needRegister => exact iff_of_true (.inr (.inl rfl)) nofun
  | waiting => exact iff_of_true (.inr (.inr rfl)) nofun
  | registered => simp

theorem timedStep_renews_iff {event : TimedEvent} (enabled : Enabled timed) (renews : Renews timed)
    (here : timedStep parse timed event = some later) :
    Enabled later ∧ (Renews later ↔ UsesValid timed event) := by
  cases event with
  | clock nowSec =>
      obtain rfl := Option.some.inj here
      exact ⟨enabled, @renews_iff { timed with nowSec } enabled⟩
  | act event =>
      rw [timedStep, Option.map_eq_some_iff] at here
      obtain ⟨after, stepped, rfl⟩ := here
      rw [registrationStep, Option.ite_none_right_eq_some] at stepped
      cases loopStep_credentials stepped.2 with
      | copied registered creds =>
          have still : Enabled { timed with reg := after } := by
            unfold Enabled
            rw [registered]
            rintro ⟨⟩
          refine ⟨still, (renews_iff still).trans ?_⟩
          rw [registered, creds]
          exact ⟨fun valid => valid rfl, fun valid _ => valid⟩
      | kept other creds state =>
          have idle : UsesValid timed (.act event) := by
            cases event with
            | copy => exact absurd rfl other
            | _ => trivial
          rcases state with same | asked | waits
          · have still : Enabled { timed with reg := after } := by
              unfold Enabled
              rw [same]
              exact enabled
            refine ⟨still, iff_of_true ?_ idle⟩
            unfold Renews
            rw [same, creds]
            exact renews
          · refine ⟨?_, iff_of_true (.inr (.inl asked)) idle⟩
            unfold Enabled
            rw [asked]
            rintro ⟨⟩
          · refine ⟨?_, iff_of_true (.inr (.inr waits)) idle⟩
            unfold Enabled
            rw [waits]
            rintro ⟨⟩

theorem selectCredentials_renews (files : CredentialFiles) (nowSec : Int) :
    Enabled ⟨selectCredentials parse true files nowSec, nowSec⟩ ∧
      Renews ⟨selectCredentials parse true files nowSec, nowSec⟩ := by
  unfold selectCredentials
  dsimp only
  generalize (if (Managerd.loadCredentials parse files.stored .empty).found = true ∧
    (Managerd.loadCredentials parse files.stored .empty).failed = true then Credentials.empty
    else (Managerd.loadCredentials parse files.stored .empty).out) = creds
  split
  next valid => exact ⟨nofun, .inl valid⟩
  next => exact ⟨nofun, .inr (.inl rfl)⟩

theorem daemon_renews_iff {start last : TimedRegistration}
    {transitions : List (Transition TimedRegistration TimedEvent)}
    (run : Execution (timedStep parse) start transitions last) (enabled : Enabled start)
    (renews : Renews start) :
    (∀ transition ∈ transitions, Renews transition.after) ↔
      ∀ transition ∈ transitions, UsesValid transition.before transition.event := by
  induction run with
  | stop state => exact iff_of_true (List.forall_mem_nil _) (List.forall_mem_nil _)
  | @next state middle ended event steps here later ih =>
      obtain ⟨still, first⟩ := timedStep_renews_iff enabled renews here
      rw [List.forall_mem_cons, List.forall_mem_cons]
      constructor
      · rintro ⟨renewed, others⟩
        exact ⟨first.mp renewed, (ih still renewed).mp others⟩
      · rintro ⟨valid, others⟩
        have renewed := first.mpr valid
        exact ⟨renewed, (ih still renewed).mpr others⟩

end Daemon

section Cycle

variable {settings : RegistrationSettings} {creds : Option Credentials} {cycle : ConnectCycle}

/-- A cycle connects with valid credentials, or it sends an init request. -/
def ConnectsValid (settings : RegistrationSettings) (creds : Option Credentials)
    (cycle : ConnectCycle) : Prop :=
  (∃ held, resolveCredentials settings cycle.nowSec cycle.stored creds = some held ∧
      held.validAt cycle.nowSec) ∨
    needRegistration settings (resolveCredentials settings cycle.nowSec cycle.stored creds) = true

/-- The credentials in memory are valid when the cycle starts, or the stored ones replace them. -/
def StartsValid (creds : Option Credentials) (cycle : ConnectCycle) : Prop :=
  (∀ held, creds = some held → held.validAt cycle.nowSec) ∨
    ∃ stored, cycle.stored = some stored ∧ stored.validAt cycle.nowSec

theorem connectsValid_iff (noToken : settings.cliToken = "") (enabled : settings.enabled = true) :
    ConnectsValid settings creds cycle ↔ StartsValid creds cycle := by
  have asked : ∀ creds : Option Credentials,
      needRegistration settings creds = true ↔ creds = none := by
    intro creds
    rw [needRegistration, if_neg (not_not.mpr noToken), enabled, if_neg Bool.true_eq_false.mp,
      Option.isNone_iff_eq_none]
  have memory : (∃ held, creds = some held ∧ held.validAt cycle.nowSec) ∨ creds = none ↔
      ∀ held, creds = some held → held.validAt cycle.nowSec := by
    cases creds with
    | none => exact iff_of_true (.inr rfl) nofun
    | some held => simp
  unfold ConnectsValid StartsValid
  rw [asked]
  unfold resolveCredentials
  rw [if_neg (not_not.mpr noToken)]
  cases cycle.stored with
  | none => simpa using memory
  | some stored =>
      dsimp only
      by_cases valid : stored.validAt cycle.nowSec
      · rw [if_pos valid]
        exact iff_of_true (.inl ⟨stored, rfl, valid⟩) (.inr ⟨stored, rfl, valid⟩)
      · rw [if_neg valid, memory]
        constructor
        · exact .inl
        · rintro (held | ⟨found, same, live⟩)
          · exact held
          · cases same
            exact absurd live valid

theorem cycles_valid_iff (noToken : settings.cliToken = "") (enabled : settings.enabled = true)
    {held : Option Credentials} {cycles : List (Transition (Option Credentials) ConnectCycle)}
    (connecting : Execution (connectAndPump settings) creds cycles held) :
    (∀ cycle ∈ cycles, ConnectsValid settings cycle.before cycle.event) ↔
      ∀ cycle ∈ cycles, StartsValid cycle.before cycle.event := by
  induction connecting with
  | stop state => exact iff_of_true (List.forall_mem_nil _) (List.forall_mem_nil _)
  | @next state middle ended event steps here later ih =>
      rw [List.forall_mem_cons, List.forall_mem_cons, ih, connectsValid_iff noToken enabled]

end Cycle

/-- Registration is enabled and no token fixed. In every run of the daemon its credentials are
valid or it asks for the next ones, exactly when none expire while it is registered and none are
adopted too late; and every cycle of the Android manager connects with valid credentials or asks
for them, exactly when those in memory are valid at its start or the stored ones are. -/
theorem credentials_renewed_iff (parse : List UInt8 → Except (List UInt8) Value)
    (files : CredentialFiles) (startSec : Int) {last : TimedRegistration}
    {transitions : List (Transition TimedRegistration TimedEvent)}
    (run : Execution (timedStep parse) ⟨selectCredentials parse true files startSec, startSec⟩
      transitions last)
    {settings : RegistrationSettings} (noToken : settings.cliToken = "")
    (enabled : settings.enabled = true) {held : Option Credentials}
    {cycles : List (Transition (Option Credentials) ConnectCycle)}
    (connecting : Execution (connectAndPump settings) none cycles held) :
    ((∀ transition ∈ transitions, Renews transition.after) ↔
        ∀ transition ∈ transitions, UsesValid transition.before transition.event) ∧
      ((∀ cycle ∈ cycles, ConnectsValid settings cycle.before cycle.event) ↔
        ∀ cycle ∈ cycles, StartsValid cycle.before cycle.event) := by
  obtain ⟨registering, renews⟩ := @selectCredentials_renews parse files startSec
  exact ⟨daemon_renews_iff run registering renews, cycles_valid_iff noToken enabled connecting⟩

section Samples

/-- The stored credentials expire at 7200. -/
def storedSample (_ : List UInt8) : Except (List UInt8) Value :=
  .ok (.object [("client_id", .string "client"), ("token", .string "secret"),
    ("token_expire", .unsigned 7200)])

def twoHours : Credentials := ⟨"client", "secret", 7200⟩

def filesSample : CredentialFiles := ⟨some [], none⟩

def startSample : TimedRegistration := ⟨selectCredentials storedSample true filesSample 0, 0⟩

abbrev timedRun (nowSec : Int) :
    Option (List (Transition TimedRegistration TimedEvent) × TimedRegistration) :=
  execute (timedStep storedSample) startSample [.clock nowSec]

def settingsSample : RegistrationSettings := ⟨"device", "", true⟩

/-- The first cycle registers, the second one finds what it stored. -/
def cycleTrace : Option (List (Transition (Option Credentials) ConnectCycle) × Option Credentials) :=
  execute (connectAndPump settingsSample) none
    [⟨0, none, true, some twoHours⟩, ⟨60, some twoHours, true, none⟩]

theorem credentials_renewed_sample :
    ((∀ transition ∈ ((timedRun 60).get rfl).1, Renews transition.after) ↔
        ∀ transition ∈ ((timedRun 60).get rfl).1,
          UsesValid transition.before transition.event) ∧
      ((∀ cycle ∈ (cycleTrace.get rfl).1, ConnectsValid settingsSample cycle.before cycle.event) ↔
        ∀ cycle ∈ (cycleTrace.get rfl).1, StartsValid cycle.before cycle.event) := by
  have ran : timedRun 60 = some ((timedRun 60).get rfl) := (Option.some_get _).symm
  have connected : cycleTrace = some (cycleTrace.get rfl) := (Option.some_get _).symm
  exact credentials_renewed_iff storedSample filesSample 0 (execution_of_execute ran) rfl rfl
    (execution_of_execute connected)

/-- The daemon is still registered when its token has expired. -/
theorem registered_with_expired_token :
    ¬ ∀ (parse : List UInt8 → Except (List UInt8) Value) (files : CredentialFiles)
        (startSec : Int) (transitions : List (Transition TimedRegistration TimedEvent))
        (last : TimedRegistration),
        Execution (timedStep parse) ⟨selectCredentials parse true files startSec, startSec⟩
          transitions last → ∀ transition ∈ transitions, Renews transition.after := by
  intro renews
  have ran : timedRun 7200 = some ((timedRun 7200).get rfl) := (Option.some_get _).symm
  have every := renews storedSample filesSample 0 _ _ (execution_of_execute ran)
  have after := every _ List.mem_cons_self
  rcases after with valid | asked | waits
  · exact absurd valid (by decide)
  · cases asked
  · cases waits

end Samples

end Idsm.Android
