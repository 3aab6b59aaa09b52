import Idsm.Managerd.ConfigManager

/-! The manager of the device's certificate: when it is renewed, what a response says
and how the file is replaced. -/

set_option autoImplicit false

namespace Idsm.Managerd

open Idsm.Foundation
open Idsm.Json (Value)

/-- The certificate file, its backup and the temporary file. -/
structure CertFiles where
  certificate : Option (List UInt8)
  backup : Option (List UInt8)
  tmp : Option (List UInt8)
  deriving DecidableEq

/-- The certificate's validity window as the cryptographic library reads it, in seconds. -/
structure CertLibrary where
  parse : List UInt8 → Except (List UInt8) Value
  readCert : List UInt8 → Option (Int × Int)

structure CertManager where
  certFile : String

inductive CertStep where
  | backup
  | writeTmp
  | renameTmp
  deriving DecidableEq

inductive CertResult where
  | accepted
  | refused (err : List UInt8)
  deriving DecidableEq

namespace CertManager

variable (manager : CertManager) (library : CertLibrary)

/-- Less than a third of the validity is left. -/
def needsRenewal (nowSec : Int) (files : CertFiles) : Except String Bool :=
  if manager.certFile = "" then .error "no cert file configured (--cert-file)"
  else
    match files.certificate.bind library.readCert with
    | none => .error ("cert unreadable: " ++ manager.certFile)
    | some (notBefore, notAfter) =>
        if notAfter ≤ notBefore ∨ notAfter = 0 then .error "cert validity window invalid"
        else .ok (notAfter - (notAfter - notBefore).tdiv 3 < nowSec)

/-- The checks of a parsed response, up to the new certificate. -/
def readCertResponse (expectRequestId : String) (resp : Value) : Checked String := do
  let requestId ← unguarded (resp.valueOr "request_id" "" Value.getString)
  let _ ← require (requestId = expectRequestId) "request_id mismatch"
  let rc ← unguarded (resp.valueOr "rc" (-1) Value.getInt)
  let _ ← require (rc = 0) ("cert apply rc=" ++ toString rc)
  let paras ← unguarded (resp.at "paras")
  let found ← unguarded (paras.at "cert_pem")
  let certPem ← unguarded found.getString
  let _ ← require (certPem ≠ "") "cert response missing cert_pem"
  return certPem

/-- The old certificate becomes the backup, then the new one takes its place. -/
def install (env : CertStep → Fault) (certPem : String) : Program CertFiles Stop Unit := do
  .step (env .backup)
    (fun files => ((), match files.certificate with
      | none => files
      | some old => { files with certificate := none, backup := some old }))
    (fun _ files => files) ()
  let written ← .step (env .writeTmp)
    (fun files => (true, { files with tmp := some (utf8 certPem) }))
    (fun progress files =>
      { files with tmp := (ConfigDir.cutText (utf8 certPem) progress).or files.tmp }) false
  let _ ← Program.ofExcept (require (written = true) ("write " ++ manager.certFile ++ ".tmp"))
  let renamed ← .step (env .renameTmp)
    (fun files => (true, { files with certificate := files.tmp, tmp := none }))
    (fun _ files => files) false
  let _ ← Program.ofExcept
    (require (renamed = true) ("rename " ++ manager.certFile ++ ": Input/output error"))
  return ()

def refusal : Stop → Except Json.Error CertResult
  | .rejected err => .ok (.refused err)
  | .threw error => .error error

def applyResponse (env : CertStep → Fault) (payload : List UInt8) (expectRequestId : String) :
    Program CertFiles Json.Error CertResult :=
  match library.parse payload with
  | .error what => pure (.refused (utf8 "cert response parse: " ++ what))
  | .ok resp =>
      (show Program CertFiles Stop CertResult from do
        let certPem ← Program.ofExcept (readCertResponse expectRequestId resp)
        manager.install env certPem
        return .accepted).handle refusal

end CertManager

end Idsm.Managerd
