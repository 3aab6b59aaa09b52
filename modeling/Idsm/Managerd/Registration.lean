import Idsm.Managerd.ConfigManager

/-! Registration: what an init response says, written field by field into the record it
is given, and the store of the credentials. -/

set_option autoImplicit false

namespace Idsm.Managerd

open Idsm.Foundation
open Idsm.Json (Value dump)

structure Credentials where
  clientId : String
  token : String
  tokenExpire : Int
  deriving DecidableEq

def Credentials.empty : Credentials := ⟨"", "", 0⟩

section Response

/-- The checks of a parsed response, up to its parameters. -/
def initResponseParas (expectRequestId : String) (resp : Value) : Checked Value := do
  let rc ← unguarded (resp.valueOr "rc" (-1) Value.getInt)
  if rc ≠ 0 then
    let rn ← unguarded (resp.valueOr "rn" "register_response" Value.getString)
    reject ("register rc=" ++ toString rc ++ " (" ++ rn ++ ")")
  else
    let rn ← unguarded (resp.valueOr "rn" "" Value.getString)
    let _ ← require (rn = "register_response") "rn != register_response"
    let requestId ← unguarded (resp.valueOr "request_id" "" Value.getString)
    let _ ← require (requestId = expectRequestId) "request_id mismatch"
    unguarded (resp.at "paras")

/-- A member that must be a text. -/
def textAt (paras : Value) (key : String) : Except Json.Error String := do
  let found ← paras.at key
  found.getString

def writeClientId (paras : Value) (out : Credentials) : Except Json.Error Credentials := do
  let clientId ← textAt paras "client_id"
  return { out with clientId }

def writeToken (paras : Value) (out : Credentials) : Except Json.Error Credentials := do
  let token ← textAt paras "token"
  return { out with token }

def writeTokenExpire (paras : Value) (out : Credentials) : Except Json.Error Credentials := do
  let tokenExpire ← paras.valueOr "token_expire" 0 Value.getLongLong
  return { out with tokenExpire }

def Credentials.complete (out : Credentials) : Prop := out.clientId ≠ "" ∧ out.token ≠ ""

instance (out : Credentials) : Decidable out.complete :=
  inferInstanceAs (Decidable (out.clientId ≠ "" ∧ out.token ≠ ""))

inductive InitResult where
  | accepted
  | refused (err : List UInt8)
  deriving DecidableEq

def parseInitResponse (parse : List UInt8 → Except (List UInt8) Value) (payload : List UInt8)
    (expectRequestId : String) (out : Credentials) :
    Except Json.Error (InitResult × Credentials) :=
  match parse payload with
  | .error what => .ok (.refused (utf8 "init response parse: " ++ what), out)
  | .ok resp =>
      match initResponseParas expectRequestId resp with
      | .error (.rejected err) => .ok (.refused err, out)
      | .error (.threw error) => .error error
      | .ok paras => do
          let named ← writeClientId paras out
          let signed ← writeToken paras named
          let written ← writeTokenExpire paras signed
          if written.complete then return (.accepted, written)
          else return (.refused (utf8 "init response missing client_id/token"), written)

end Response

section Store

/-- The credentials file and the temporary file beside it. -/
structure CredentialFiles where
  stored : Option (List UInt8)
  tmp : Option (List UInt8)
  deriving DecidableEq

inductive SaveStep where
  | writeTmp
  | renameTmp
  deriving DecidableEq

def credentialText (c : Credentials) : List UInt8 :=
  utf8 (dump (fun _ => "") (.object [("client_id", .string c.clientId), ("token", .string c.token),
    ("token_expire", .integer (.ofInt c.tokenExpire))]) (some 2) ++ "\n")

def saveCredentials (env : SaveStep → Fault) (c : Credentials) :
    Program CredentialFiles Stop Unit := do
  let written ← .step (env .writeTmp)
    (fun files => (true, { files with tmp := some (credentialText c) }))
    (fun progress files =>
      { files with tmp := (ConfigDir.cutText (credentialText c) progress).or files.tmp }) false
  let _ ← Program.ofExcept (require (written = true) "credentials write failed")
  let renamed ← .step (env .renameTmp)
    (fun files => (true, { files with stored := files.tmp, tmp := none }))
    (fun _ files => files) false
  let _ ← Program.ofExcept (require (renamed = true) "credentials rename: Input/output error")
  return ()

end Store

end Idsm.Managerd
