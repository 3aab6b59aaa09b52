import Idsm.Managerd.RegistrationLoop

/-! The credentials the daemon starts with, and its registration as time passes. -/

set_option autoImplicit false

namespace Idsm.Managerd

open Idsm.Foundation
open Idsm.Json (Value)

/-- An expiry of zero is unknown. -/
def Credentials.validAt (creds : Credentials) (nowSec : Int) : Prop :=
  creds.clientId ≠ "" ∧ creds.token ≠ "" ∧ (creds.tokenExpire = 0 ∨ nowSec < creds.tokenExpire)

instance (creds : Credentials) (nowSec : Int) : Decidable (creds.validAt nowSec) :=
  inferInstanceAs (Decidable (_ ∧ _ ∧ (_ ∨ _)))

section Load

variable (parse : List UInt8 → Except (List UInt8) Value)

/-- What `load` returns, what it has written by then, and whether it says why it failed. -/
structure LoadedCredentials where
  found : Bool
  out : Credentials
  failed : Bool

/-- Fields that were read stay written when a later one is of the wrong kind. -/
def loadCredentials (stored : Option (List UInt8)) (out : Credentials) : LoadedCredentials :=
  match stored with
  | none => ⟨false, out, false⟩
  | some text =>
      match parse text with
      | .error _ => ⟨false, out, true⟩
      | .ok j =>
          match writeClientId j out with
          | .error _ => ⟨false, out, true⟩
          | .ok named =>
              match writeToken j named with
              | .error _ => ⟨false, named, true⟩
              | .ok signed =>
                  match writeTokenExpire j signed with
                  | .error _ => ⟨false, signed, true⟩
                  | .ok read => ⟨true, read, false⟩

/-- The selection at the start, without a fixed token. -/
def selectCredentials (registration : Bool) (files : CredentialFiles) (nowSec : Int) :
    Registration :=
  let loaded := loadCredentials parse files.stored .empty
  let creds := if loaded.found ∧ loaded.failed then .empty else loaded.out
  if creds.validAt nowSec then
    { Registration.init .registered creds files with uploader := some (creds.clientId, creds.token) }
  else if registration then .init .needRegister creds files
  else .init .disabled creds files

end Load

structure TimedRegistration where
  reg : Registration
  nowSec : Int

inductive TimedEvent where
  | clock (nowSec : Int)
  | act (event : RegistrationEvent)

/-- No step looks at the expiry. -/
def timedStep (parse : List UInt8 → Except (List UInt8) Value) (timed : TimedRegistration) :
    TimedEvent → Option TimedRegistration
  | .clock nowSec => some { timed with nowSec }
  | .act event => (registrationStep parse timed.reg event).map fun reg => { timed with reg }

end Idsm.Managerd
