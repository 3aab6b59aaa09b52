import Idsm.Managerd.CredentialSelection

/-! The connect cycle of the Android manager, up to the credentials it uses. -/

set_option autoImplicit false

namespace Idsm.Android

open Idsm.Managerd (Credentials)

structure RegistrationSettings where
  deviceId : String
  cliToken : String
  enabled : Bool

/-- `resolveCredentials`, where `load` returned `stored`. -/
def resolveCredentials (settings : RegistrationSettings) (nowSec : Int)
    (stored creds : Option Credentials) : Option Credentials :=
  if settings.cliToken ≠ "" then some ⟨"idsm-" ++ settings.deviceId, settings.cliToken, 0⟩
  else
    match stored with
    | none => creds
    | some stored => if stored.validAt nowSec then some stored else creds

def needRegistration (settings : RegistrationSettings) (creds : Option Credentials) : Bool :=
  if settings.cliToken ≠ "" then false
  else if settings.enabled = false then false
  else creds.isNone

/-- One cycle: when it starts, what `load` returns, whether the connection is made, and the
credentials of a registration that succeeds. -/
structure ConnectCycle where
  nowSec : Int
  stored : Option Credentials
  connected : Bool
  registered : Option Credentials

/-- `connectAndPump`, from the credentials in memory to those after it. -/
def connectAndPump (settings : RegistrationSettings) (creds : Option Credentials)
    (cycle : ConnectCycle) : Option (Option Credentials) :=
  let creds := resolveCredentials settings cycle.nowSec cycle.stored creds
  some (if cycle.connected ∧ needRegistration settings creds then cycle.registered.or creds
    else creds)

end Idsm.Android
