import Idsm.Foundation.Execution
import Idsm.Managerd.CertManager

/-! The renewal of the certificate: the main loop's machine and the network thread, which
fills one slot with each response, statement by statement. -/

set_option autoImplicit false

namespace Idsm.Managerd

open Idsm.Foundation
open Idsm.Json (Value)

inductive CertSt where
  | idle
  | waiting
  deriving DecidableEq

/-- What both threads share. -/
structure CertCtx where
  st : CertSt
  rid : String
  pendingPayload : List UInt8
  responseReady : Bool
  deadlineMs : Int
  nextAttemptMs : Int
  attempts : Nat
  deriving DecidableEq

/-- Where the main loop stands while it waits: before it looks at the slot, or after
`exchange` returned. -/
inductive RenewalPhase where
  | polling
  | taken
  | notReady
  | stopped
  deriving DecidableEq

/-- `delivering` holds between the network thread's two assignments, `renewing` while
there is a certificate manager. -/
structure Renewal where
  cert : CertCtx
  files : CertFiles
  phase : RenewalPhase
  delivering : Bool
  renewing : Bool

def Renewal.init (files : CertFiles) : Renewal where
  cert := ⟨.idle, "", [], false, 0, 0, 0⟩
  files := files
  phase := .polling
  delivering := false
  renewing := true

/-- One statement of either thread, with what the environment contributes to it. -/
inductive RenewalEvent where
  | storePayload (payload : List UInt8)
  | setReady
  | attempt (nowMs : Int) (rid : String) (sent : Bool)
  | exchangeReady
  | takeResponse (nowMs : Int) (env : CertStep → Fault) (reloaded : Bool)
  | checkDeadline (nowMs : Int)

section Machine

variable (manager : CertManager) (library : CertLibrary)

/-- The branch of the idle state once the attempt is due. -/
def attemptRenewal (nowMs : Int) (rid : String) (sent : Bool) (state : Renewal) : Renewal :=
  match manager.needsRenewal library (nowMs.tdiv 1000) state.files with
  | .error _ => { state with renewing := false }
  | .ok false =>
      { state with cert := { state.cert with nextAttemptMs := nowMs + 6 * 3600 * 1000 } }
  | .ok true =>
      if sent then
        { state with cert := { state.cert with
            rid
            st := .waiting
            deadlineMs := nowMs + 30000
            attempts := state.cert.attempts + 1 } }
      else { state with cert := { state.cert with rid, nextAttemptMs := nowMs + 3600 * 1000 } }

/-- The branch after `exchange` returned true. An exception ends the daemon. -/
def consumeResponse (nowMs : Int) (env : CertStep → Fault) (reloaded : Bool) (state : Renewal) :
    Renewal :=
  match (manager.applyResponse library env state.cert.pendingPayload state.cert.rid).run
      state.files with
  | .returned .accepted files =>
      let nextAttemptMs :=
        if reloaded then nowMs + 12 * 3600 * 1000 else state.cert.nextAttemptMs
      { state with files, phase := .polling, cert := { state.cert with st := .idle, nextAttemptMs } }
  | .returned (.refused _) files =>
      { state with
        files
        phase := .polling
        cert := { state.cert with st := .idle, nextAttemptMs := nowMs + 24 * 3600 * 1000 } }
  | .threw _ files => { state with files, phase := .stopped }
  | .crashed files => { state with files, phase := .stopped }

/-- The branch after `exchange` returned false. -/
def expireRequest (nowMs : Int) (state : Renewal) : Renewal :=
  if state.cert.deadlineMs < nowMs then
    let backoff := min 60000 (5000 * ((state.cert.attempts : Int) + 1))
    { state with
      phase := .polling
      cert := { state.cert with st := .idle, nextAttemptMs := nowMs + backoff } }
  else { state with phase := .polling }

def renewalStep (state : Renewal) : RenewalEvent → Option Renewal
  | .storePayload payload =>
      if state.phase ≠ .stopped ∧ state.delivering = false then
        some { state with
          delivering := true
          cert := { state.cert with pendingPayload := payload } }
      else none
  | .setReady =>
      if state.phase ≠ .stopped ∧ state.delivering = true then
        some { state with delivering := false, cert := { state.cert with responseReady := true } }
      else none
  | .attempt nowMs rid sent =>
      if state.phase = .polling ∧ state.renewing = true ∧ state.cert.st = .idle ∧
          state.cert.nextAttemptMs ≤ nowMs then
        some (attemptRenewal manager library nowMs rid sent state)
      else none
  | .exchangeReady =>
      if state.phase = .polling ∧ state.renewing = true ∧ state.cert.st = .waiting then
        some { state with
          phase := if state.cert.responseReady then .taken else .notReady
          cert := { state.cert with responseReady := false } }
      else none
  | .takeResponse nowMs env reloaded =>
      if state.phase = .taken then some (consumeResponse manager library nowMs env reloaded state)
      else none
  | .checkDeadline nowMs =>
      if state.phase = .notReady then some (expireRequest nowMs state) else none

end Machine

end Idsm.Managerd
