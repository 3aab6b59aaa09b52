import Idsm.Foundation.Execution
import Idsm.Managerd.Registration

/-! The registration: the main loop's steps and the network thread, which writes an init
response into the record both share, one field at a time. -/

set_option autoImplicit false

namespace Idsm.Managerd

open Idsm.Foundation
open Idsm.Json (Value)

inductive RegState where
  | disabled
  | needRegister
  | waiting
  | registered
  deriving DecidableEq

/-- Where the network thread stands in `parseInitResponse` and behind it. -/
inductive ParsePosition where
  | outside
  | clientId (paras : Value)
  | token (paras : Value)
  | tokenExpire (paras : Value)
  | emptyCheck
  | accepted

/-- Where the main loop stands. -/
inductive LoopPosition where
  | exchange
  | save
  | updateCredentials
  | copy
  | fail
  | reset
  | schedule
  deriving DecidableEq

/-- The context both threads share, with the loop's timers, the files and what the uploader
was last given. -/
structure Registration where
  state : RegState
  creds : Credentials
  pending : Credentials
  responseReady : Bool
  requestId : String
  deadlineMs : Int
  nextAttemptMs : Int
  attempts : Nat
  files : CredentialFiles
  uploader : Option (String × String)
  network : ParsePosition
  loop : LoopPosition
  running : Bool

def Registration.init (state : RegState) (creds : Credentials) (files : CredentialFiles) :
    Registration where
  state := state
  creds := creds
  pending := .empty
  responseReady := false
  requestId := ""
  deadlineMs := 0
  nextAttemptMs := 0
  attempts := 0
  files := files
  uploader := none
  network := .outside
  loop := .exchange
  running := true

/-- One step of either thread, with what the environment contributes to it. -/
inductive RegistrationEvent where
  | deliver (payload : List UInt8)
  | advance
  | exchangeReady
  | save (env : SaveStep → Fault)
  | updateCredentials (reconnected : Bool)
  | copy
  | fail (nowMs : Int)
  | reset
  | schedule (nowMs : Int) (connected : Bool) (rid : String) (sent : Bool)

section Machine

variable (parse : List UInt8 → Except (List UInt8) Value)

/-- The start of `parseInitResponse`; an exception ends the daemon. -/
def beginResponse (payload : List UInt8) (reg : Registration) : Registration :=
  match parse payload with
  | .error _ => reg
  | .ok resp =>
      match initResponseParas reg.requestId resp with
      | .error (.rejected _) => reg
      | .error (.threw _) => { reg with running := false }
      | .ok paras => { reg with network := .clientId paras }

/-- One of the writes to the shared record. -/
def writePending (written : Except Json.Error Credentials) (next : ParsePosition)
    (reg : Registration) : Registration :=
  match written with
  | .error _ => { reg with running := false }
  | .ok pending => { reg with pending, network := next }

/-- The next step of the network thread on the response it has. -/
def advanceResponse (reg : Registration) : Option Registration :=
  match reg.network with
  | .outside => none
  | .clientId paras => some (writePending (writeClientId paras reg.pending) (.token paras) reg)
  | .token paras => some (writePending (writeToken paras reg.pending) (.tokenExpire paras) reg)
  | .tokenExpire paras => some (writePending (writeTokenExpire paras reg.pending) .emptyCheck reg)
  | .emptyCheck =>
      some { reg with network := if reg.pending.complete then .accepted else .outside }
  | .accepted => some { reg with responseReady := true, network := .outside }

/-- The store of the shared record and where the loop goes on from there. -/
def savePending (env : SaveStep → Fault) (reg : Registration) : Registration :=
  match (saveCredentials env reg.pending).run reg.files with
  | .returned _ files => { reg with files, loop := .updateCredentials }
  | .threw _ files => { reg with files, loop := .fail }
  | .crashed files => { reg with files, running := false }

/-- The request, or its deadline. -/
def scheduleRequest (nowMs : Int) (connected : Bool) (rid : String) (sent : Bool)
    (reg : Registration) : Registration :=
  if reg.state = .needRegister ∧ connected = true ∧ reg.nextAttemptMs ≤ nowMs then
    if sent then
      { reg with
        requestId := rid
        state := .waiting
        deadlineMs := nowMs + 30000
        attempts := reg.attempts + 1
        loop := .exchange }
    else { reg with requestId := rid, nextAttemptMs := nowMs + 10000, loop := .exchange }
  else if reg.state = .waiting ∧ reg.deadlineMs < nowMs then
    { reg with
      state := .needRegister
      nextAttemptMs := nowMs + min 60000 (5000 * ((reg.attempts : Int) + 1))
      loop := .exchange }
  else { reg with loop := .exchange }

def loopStep (reg : Registration) : RegistrationEvent → Option Registration
  | .deliver payload =>
      match reg.network with
      | .outside => some (beginResponse parse payload reg)
      | _ => none
  | .advance => advanceResponse reg
  | .exchangeReady =>
      if reg.loop = .exchange then
        some { reg with
          responseReady := false
          loop := if reg.responseReady then .save else .schedule }
      else none
  | .save env => if reg.loop = .save then some (savePending env reg) else none
  | .updateCredentials reconnected =>
      if reg.loop = .updateCredentials then
        some { reg with
          uploader := some (reg.pending.clientId, reg.pending.token)
          loop := if reconnected then .copy else .fail }
      else none
  | .copy =>
      if reg.loop = .copy then
        some { reg with creds := reg.pending, state := .registered, loop := .reset }
      else none
  | .fail nowMs =>
      if reg.loop = .fail then
        some { reg with
          state := .needRegister
          nextAttemptMs := nowMs + 10000
          loop := .reset }
      else none
  | .reset =>
      if reg.loop = .reset then some { reg with pending := .empty, loop := .schedule } else none
  | .schedule nowMs connected rid sent =>
      if reg.loop = .schedule then some (scheduleRequest nowMs connected rid sent reg) else none

def registrationStep (reg : Registration) (event : RegistrationEvent) : Option Registration :=
  if reg.running then loopStep parse reg event else none

end Machine

end Idsm.Managerd
