import Idsm.Managerd.CertManager
import Idsm.Managerd.SignedBundleProperties

/-! What a certificate response leaves in the certificate's place. The old certificate moves
to its backup before the new one is written, so between the two there is none. -/

set_option autoImplicit false

namespace Idsm.Managerd

open Idsm.Foundation
open Idsm.Json (Value)

/-- A response to the request that carries a certificate. -/
def Issues (library : CertLibrary) (payload : List UInt8) (expectRequestId certPem : String) :
    Prop :=
  ∃ resp paras found, library.parse payload = .ok resp ∧
    resp.valueOr "request_id" "" Value.getString = .ok expectRequestId ∧
    resp.valueOr "rc" (-1) Value.getInt = .ok 0 ∧ resp.at "paras" = .ok paras ∧
    paras.at "cert_pem" = .ok found ∧ found.getString = .ok certPem ∧ certPem ≠ ""

/-- However the steps end, the certificate's place holds the complete old or the complete
new certificate, and a refusal changes nothing there. -/
structure KeepsCertificate (manager : CertManager) (library : CertLibrary)
    (payload : List UInt8) (expectRequestId : String) (start : CertFiles) : Prop where
  complete : ∀ env,
    let later := ((manager.applyResponse library env payload expectRequestId).run start).store
    later.certificate = start.certificate ∨
      ∃ certPem, Issues library payload expectRequestId certPem ∧
        later.certificate = some (utf8 certPem)
  refused : ∀ env err later,
    (manager.applyResponse library env payload expectRequestId).run start =
      .returned (.refused err) later → later.certificate = start.certificate

namespace CertManager

section Installing

variable {manager : CertManager} {library : CertLibrary} {env : CertStep → Fault}
  {payload : List UInt8} {expectRequestId certPem : String} {start : CertFiles} {resp : Value}

theorem readCertResponse_eq_ok :
    readCertResponse expectRequestId resp = .ok certPem ↔
      ∃ paras found, resp.valueOr "request_id" "" Value.getString = .ok expectRequestId ∧
        resp.valueOr "rc" (-1) Value.getInt = .ok 0 ∧ resp.at "paras" = .ok paras ∧
        paras.at "cert_pem" = .ok found ∧ found.getString = .ok certPem ∧ certPem ≠ "" := by
  simp only [readCertResponse, bind_eq_ok, unguarded_eq_ok]
  constructor
  · intro ⟨requestId, named, ⟨same⟩, _, rc, coded, ⟨zero⟩, _, paras, inner, found, held, text, read,
      ⟨given⟩, _, result⟩
    cases result
    exact ⟨paras, found, same ▸ named, zero ▸ coded, inner, held, read, given⟩
  · intro ⟨paras, found, named, coded, inner, held, read, given⟩
    exact ⟨_, named, ⟨rfl⟩, require_of rfl, 0, coded, ⟨rfl⟩, require_of rfl, paras, inner, found,
      held, certPem, read, ⟨given⟩, require_of given, rfl⟩

/-- The response that issues nothing is refused, or its exception leaves the function. -/
theorem applyResponse_of_not_issues
    (issuesNothing : ¬ ∃ certPem, Issues library payload expectRequestId certPem) :
    ((manager.applyResponse library env payload expectRequestId).run start).store = start := by
  rw [applyResponse]
  cases parsed : library.parse payload with
  | error what => rfl
  | ok resp =>
      simp only [Program.run_handle, Program.run_bind]
      cases read : readCertResponse expectRequestId resp with
      | ok certPem =>
          obtain ⟨paras, found, issued⟩ := readCertResponse_eq_ok.1 read
          exact absurd ⟨certPem, resp, paras, found, parsed, issued⟩ issuesNothing
      | error stop => cases stop <;> rfl

theorem applyResponse_of_issues (issues : Issues library payload expectRequestId certPem) :
    manager.applyResponse library env payload expectRequestId =
      (show Program CertFiles Stop CertResult from do
        manager.install env certPem
        return .accepted).handle refusal := by
  obtain ⟨resp, paras, found, parsed, issued⟩ := issues
  rw [applyResponse, parsed]
  simp only [readCertResponse_eq_ok.2 ⟨paras, found, issued⟩]
  rfl

/-- Without a certificate there is nothing to move away. -/
theorem install_triple :
    (manager.install env certPem).Triple (fun files => files.certificate = none)
      (fun _ files => files.certificate = some (utf8 certPem))
      (fun _ files => files.certificate = none) (fun files => files.certificate = none) := by
  refine .bind (fun _ files => files.certificate = none) ?_ fun _ => ?_
  · apply Program.Triple.step
    · intro _ files absent
      simp only [absent]
    · exact fun _ _ files absent => absent
    · exact fun _ _ files absent => absent
  refine .bind (fun written files => files.certificate = none ∧
    (written = true → files.tmp = some (utf8 certPem))) ?_ fun written => ?_
  · apply Program.Triple.step
    · exact fun _ files absent => ⟨absent, fun _ => rfl⟩
    · exact fun _ _ files absent => ⟨absent, fun impossible => nomatch impossible⟩
    · exact fun _ _ files absent => absent
  refine .bind (fun _ files => files.certificate = none ∧ files.tmp = some (utf8 certPem)) ?_
    fun _ => ?_
  · apply Program.Triple.ofExcept
    · exact fun passed accepted files kept => ⟨kept.1, kept.2 passed.down⟩
    · exact fun _ _ files kept => kept.1
  refine .bind (fun renamed files => if renamed = true then
    files.certificate = some (utf8 certPem) else files.certificate = none) ?_ fun renamed => ?_
  · apply Program.Triple.step
    · exact fun _ files kept => kept.2
    · exact fun _ _ files kept => kept.1
    · exact fun _ _ files kept => kept.1
  refine .bind (fun _ files => files.certificate = some (utf8 certPem)) ?_ fun _ => ?_
  · cases renamed with
    | true =>
        apply Program.Triple.ofExcept
        · exact fun _ _ files kept => kept
        · intro error failed
          cases failed
    | false =>
        apply Program.Triple.ofExcept
        · intro passed accepted
          cases accepted
        · exact fun _ _ files kept => kept
  exact .pure fun files kept => kept

theorem keepsCertificate_of_absent (absent : start.certificate = none)
    (issues : Issues library payload expectRequestId certPem) :
    KeepsCertificate manager library payload expectRequestId start := by
  have installed : ∀ env, ((manager.applyResponse library env payload expectRequestId).run
      start).Within (fun result files => (result = .accepted → files.certificate = some (utf8 certPem))
        ∧ (result ≠ .accepted → files.certificate = none)) (fun _ files => files.certificate = none)
        (fun files => files.certificate = none) := by
    intro env
    rw [applyResponse_of_issues issues]
    refine Program.Triple.handle
      (.bind (fun _ files => files.certificate = some (utf8 certPem)) install_triple fun _ =>
        .pure fun files kept => ⟨fun _ => kept, fun impossible => absurd rfl impossible⟩) ?_ ?_
      start absent
    · intro error value answered files kept
      cases error with
      | rejected err =>
          cases answered
          exact ⟨fun impossible => (nomatch impossible), fun _ => kept⟩
      | threw error => cases answered
    · exact fun _ _ _ _ kept => kept
  constructor
  · intro env
    have ends := installed env
    rw [absent]
    cases ended : (manager.applyResponse library env payload expectRequestId).run start with
    | returned result later =>
        rw [ended] at ends
        by_cases accepted : result = .accepted
        · exact .inr ⟨certPem, issues, ends.1 accepted⟩
        · exact .inl (ends.2 accepted)
    | threw error later =>
        rw [ended] at ends
        exact .inl ends
    | crashed later =>
        rw [ended] at ends
        exact .inl ends
  · intro env err later ended
    have ends := installed env
    rw [ended] at ends
    rw [absent]
    exact ends.2 fun impossible => nomatch impossible

/-- The new certificate cannot be written: the old one is gone from its place. -/
theorem applyResponse_of_full_disk (issues : Issues library payload expectRequestId certPem)
    (old : List UInt8) (backup tmp : Option (List UInt8)) :
    ∃ err, (manager.applyResponse library (fun step => if step = .writeTmp then .fail 0 else .none)
      payload expectRequestId).run ⟨some old, backup, tmp⟩ =
        .returned (.refused err) ⟨none, some old, tmp⟩ := by
  rw [applyResponse_of_issues issues]
  exact ⟨_, rfl⟩

end Installing

end CertManager

def certResponseText : List UInt8 :=
  utf8 "\x7b\"paras\":\x7b\"cert_pem\":\"NEW\"\x7d,\"rc\":0,\"request_id\":\"r1\"\x7d"

def certResponse : Value :=
  .object [("paras", .object [("cert_pem", .string "NEW")]), ("rc", .unsigned 0),
    ("request_id", .string "r1")]

def certTextLibrary : CertLibrary where
  parse payload := if payload = certResponseText then .ok certResponse else .error []
  readCert _ := none

end Idsm.Managerd
