import Idsm.Android.DownlinkProperties
import Idsm.Android.RuleCanonicalProperties
import Idsm.Managerd.FieldKindProperties

/-! What the daemon and the Android manager decide on one rule bundle. Both ask the same
of what they have read; they differ in what they read, and in the comparison without case. -/

set_option autoImplicit false

namespace Idsm.Android.RuleManager

open Idsm.Foundation
open Idsm.Json (Value)
open Idsm.Managerd (Crypto DeviceIdentity bind_eq_ok validVersionName kClockSkewToleranceSec
  requireFields requireFields_eq_ok requireText_eq_ok ruleFields)

/-- A bundle is refused, uses up its sequence number, or brings rules. -/
inductive Decision where
  | rejected
  | skipped (seq : Int)
  | applied (ruleTexts : List String)
  deriving DecidableEq

/-- The daemon's decision, when the steps on disk succeed. -/
def daemonDecision (manager : Managerd.RuleManager) (crypto : Crypto)
    (parse : List UInt8 → Except (List UInt8) Value) (self : DeviceIdentity) (now maxSeq : Int)
    (text : List UInt8) : Except Json.Error Decision :=
  match parse text with
  | .error _ => .ok .rejected
  | .ok document =>
      match manager.accept crypto now maxSeq document with
      | .error (.rejected _) => .ok .rejected
      | .error (.threw error) => .error error
      | .ok bundle =>
          .ok (if bundle.header.target.hits self then .applied bundle.rules
            else .skipped bundle.header.seq)

/-- The Android manager's decision, when the file operations succeed. -/
def appDecision (platform : Platform) (self : DeviceIdentity) (now maxSeq : Int)
    (text : List UInt8) : Except Thrown Decision :=
  match readDraft platform now maxSeq (platform.strings.ofBytes text) >>= authorize platform with
  | .error (.returned _) => .ok .rejected
  | .error (.threw error) => .error error
  | .ok update =>
      .ok (if hits platform.strings self update.target then .applied update.ruleTexts
        else .skipped update.scalars.seq)

/-- Both check signatures alike and have the same key; its fingerprint is a text of hex digits,
on which the two comparisons without case agree. -/
structure SameSigner (manager : Managerd.RuleManager) (crypto : Crypto) (platform : Platform) :
    Prop where
  check : ∀ canonical signature,
    Managerd.verifySignature crypto manager.pubkeyB64 "rule" canonical signature = .ok () ↔
      ∃ sig, platform.security.decodeBase64 signature = .ok sig ∧
        verifyEd25519 platform "Ed25519 signature mismatch" (utf8 canonical) sig = .ok ()
  fingerprint : ∀ want, Managerd.configuredPubkeyId crypto manager.pubkeyB64 = .ok want ↔
    configuredPubkeyId platform = some want
  folds : ∀ want pubkeyId, configuredPubkeyId platform = some want →
    (platform.strings.equalsIgnoreCase want pubkeyId = true ↔
      Managerd.toLower want = Managerd.toLower pubkeyId)

/-- What either side asks of the fields it has read. -/
structure Update.Genuine (platform : Platform) (now maxSeq : Int) (update : Update) : Prop where
  positive : 0 < update.scalars.seq
  named : validVersionName update.scalars.version = true
  inline : update.scalars.bundleType = 1
  nonempty : update.ruleTexts ≠ []
  unexpired : now - CLOCK_SKEW_SEC ≤ update.scalars.expiresAt
  issued : update.scalars.issuedAt ≤ now + CLOCK_SKEW_SEC
  above : maxSeq < update.scalars.seq
  authentic : authenticate platform "Ed25519 signature mismatch" update.canonical
    update.scalars = .ok ()

/-- The fields as the daemon reads them from a document. -/
structure Update.ReadByDaemon (document : Value) (update : Update) : Prop where
  fields : ∀ key ∈ ruleFields, document.contains key = true
  msgType : (document.field "msg_type").getString = .ok "rule_update"
  sigAlg : (document.field "sig_alg").getString = .ok "Ed25519"
  scalars : Managerd.readScalars document "upgrade_type" = .ok update.scalars
  target : Managerd.readTarget (document.field "target") = .ok update.target
  rules : ∃ items, document.member? "rules" = some (.array items) ∧
    Managerd.ruleTexts items = .ok update.ruleTexts

/-- The fields as the Android manager reads them from an object. -/
structure Update.ReadByApp (library : OrgJson) (bundle : library.Object) (update : Update) :
    Prop where
  msgType : library.optString bundle "msg_type" "" = "rule_update"
  sigAlg : library.optString bundle "sig_alg" "" = "Ed25519"
  scalars : readScalars library bundle "upgrade_type" = update.scalars
  target : ∃ target, library.getJSONObject bundle "target" = some target ∧
    readTarget library target = update.target
  rules : ∃ rulesArr, library.getJSONArray bundle "rules" = some rulesArr ∧
    library.strings rulesArr = some update.ruleTexts

section Signature

variable {manager : Managerd.RuleManager} {crypto : Crypto} {platform : Platform}

theorem authenticate_eq_ok {mismatch : String} {canonical : List UInt8}
    {scalars : Managerd.Scalars} :
    authenticate platform mismatch canonical scalars = .ok () ↔
      (∃ sig, platform.security.decodeBase64 scalars.signature = .ok sig ∧
        verifyEd25519 platform mismatch canonical sig = .ok ()) ∧
      ∃ want, configuredPubkeyId platform = some want ∧
        platform.strings.equalsIgnoreCase want scalars.pubkeyId = true := by
  rw [authenticate]
  cases decoded : platform.security.decodeBase64 scalars.signature with
  | error message => simp [Except.toOption, throwing, bind, Except.bind]
  | ok sig =>
      cases verified : verifyEd25519 platform mismatch canonical sig with
      | error message => simp [verified, Except.toOption, throwing, bind, Except.bind]
      | ok checked =>
          simp only [bind_eq_ok, throwing_eq_ok, returnUnless_eq_ok, Except.toOption,
            Option.some.injEq, exists_eq_left', Except.ok.injEq, verified, true_and]

theorem authenticate_iff (same : SameSigner manager crypto platform) (canonical : String)
    (scalars : Managerd.Scalars) :
    Managerd.authenticate crypto manager.pubkeyB64 "rule" canonical scalars = .ok () ↔
      authenticate platform "Ed25519 signature mismatch" (utf8 canonical) scalars = .ok () := by
  rw [authenticate_eq_ok, ← same.check, Managerd.authenticate]
  simp only [bind_eq_ok]
  constructor
  · rintro ⟨⟨⟩, checked, want, found, ⟨equal⟩, _, _⟩
    have known := (same.fingerprint want).mp found
    exact ⟨checked, want, known, (same.folds want _ known).mpr equal⟩
  · rintro ⟨checked, want, known, equal⟩
    exact ⟨(), checked, want, (same.fingerprint want).mpr known,
      ⟨(same.folds want _ known).mp equal⟩, Managerd.require_of _, rfl⟩

end Signature

section Readings

variable {manager : Managerd.RuleManager} {crypto : Crypto} {platform : Platform}
  {now maxSeq : Int}

theorem canonical_eq (update : Update) :
    update.canonical = utf8 (Managerd.canonicalRuleBytes update.scalars.seq update.scalars.tenant
      update.scalars.version update.scalars.rollback update.target.ecu update.target.nodeType
      update.target.vmodel update.scalars.issuedAt update.scalars.expiresAt
      update.scalars.bundleType (Managerd.payloadLines update.ruleTexts)) := by
  rw [Update.canonical, canonicalBytes_eq, (payloadLines_orders update.ruleTexts).2.1]

/-- What of an admitted bundle its decision depends on. -/
def Brings (bundle : Managerd.RuleBundle) (update : Update) : Prop :=
  bundle.rules = update.ruleTexts ∧ bundle.header.target = update.target ∧
    bundle.header.seq = update.scalars.seq

/-- The daemon admits only genuine readings. -/
theorem genuine_of_accept (same : SameSigner manager crypto platform) {document : Value}
    {bundle : Managerd.RuleBundle} (accepted : manager.accept crypto now maxSeq document = .ok bundle) :
    ∃ update : Update, update.ReadByDaemon document ∧ update.Genuine platform now maxSeq ∧
      Brings bundle update := by
  obtain ⟨draft, read, drawn⟩ := Managerd.RuleManager.accept_eq_ok.1 accepted
  obtain ⟨header, rules, inline, nonempty⟩ := bundle
  obtain rfl : header = draft.header := drawn.header
  refine ⟨⟨draft.scalars, draft.target, rules⟩, ?_, ?_, rfl, rfl, rfl⟩
  · exact ⟨requireFields_eq_ok.1 read.fields, read.msgType, read.sigAlg, read.scalars,
      read.target, draft.items, read.items, drawn.rules⟩
  · refine ⟨draft.positive, draft.named, draft.inline, nonempty, read.unexpired, read.issued,
      drawn.above, ?_⟩
    rw [canonical_eq]
    exact (authenticate_iff same _ _).mp drawn.authentic

/-- The daemon admits every genuine reading. -/
theorem accept_of_genuine (same : SameSigner manager crypto platform) {document : Value}
    {update : Update} (read : update.ReadByDaemon document)
    (genuine : update.Genuine platform now maxSeq) :
    ∃ bundle, manager.accept crypto now maxSeq document = .ok bundle ∧ Brings bundle update := by
  obtain ⟨items, found, texts⟩ := read.rules
  have nonempty : items ≠ [] := by
    rintro rfl
    exact genuine.nonempty (Except.ok.inj texts).symm
  let draft : Managerd.RuleDraft := ⟨update.scalars, update.target, items, genuine.positive,
    genuine.named, genuine.inline, nonempty⟩
  let bundle : Managerd.RuleBundle := ⟨draft.header, update.ruleTexts, genuine.inline,
    genuine.nonempty⟩
  refine ⟨bundle, Managerd.RuleManager.accept_eq_ok.2 ⟨draft, ?_, ?_⟩, rfl, rfl, rfl⟩
  · exact ⟨requireFields_eq_ok.2 read.fields, read.msgType, read.sigAlg, read.scalars, found,
      read.target, genuine.unexpired, genuine.issued⟩
  · refine ⟨genuine.above, texts, rfl, (authenticate_iff same _ _).mpr ?_⟩
    have authentic := genuine.authentic
    rw [canonical_eq] at authentic
    exact authentic

private theorem length_mapM {α β : Type} {f : α → Option β} {items : List α} {values : List β}
    (read : items.mapM f = some values) : values.length = items.length := by
  induction items generalizing values with
  | nil =>
      cases read
      rfl
  | cons item later ih =>
      simp only [List.mapM_cons, Option.bind_eq_bind, Option.bind_eq_some_iff, Option.pure_def,
        Option.some.injEq] at read
      obtain ⟨first, _, others, behind, rfl⟩ := read
      simp [ih behind]

private theorem strings_ne_nil {library : OrgJson} {arr : library.Array} {texts : List String}
    (read : library.strings arr = some texts) : library.length arr ≠ 0 ↔ texts ≠ [] := by
  have counted := length_mapM read
  rw [List.length_range] at counted
  rw [← counted, ne_eq, ne_eq, List.length_eq_zero_iff]

theorem checkTimes_eq_ok {nowSec : Int} {scalars : Managerd.Scalars} :
    checkTimes nowSec scalars = .ok () ↔
      nowSec - CLOCK_SKEW_SEC ≤ scalars.expiresAt ∧
        scalars.issuedAt ≤ nowSec + CLOCK_SKEW_SEC := by
  simp only [checkTimes, bind_eq_ok]
  constructor
  · rintro ⟨_, unexpired, issued⟩
    exact ⟨returnUnless_eq_ok.1 unexpired, returnUnless_eq_ok.1 issued⟩
  · exact fun both => ⟨(), returnUnless_eq_ok.2 both.1, returnUnless_eq_ok.2 both.2⟩

/-- The Android manager admits exactly the genuine readings. -/
theorem admits_iff {text : String} {update : Update} :
    (readDraft platform now maxSeq text >>= authorize platform) = .ok update ↔
      ∃ bundle, platform.json.ofText text = .ok bundle ∧
        update.ReadByApp platform.json bundle ∧ update.Genuine platform now maxSeq := by
  have parses : ∀ bundle, parseBundle platform.json text = .ok bundle ↔
      platform.json.ofText text = .ok bundle := by
    intro bundle
    rw [parseBundle]
    cases platform.json.ofText text with
    | ok other => simp
    | error message => simp
  simp only [readDraft, authorize, bind_eq_ok, requireText, catching_eq_ok, throwing_eq_ok, parses]
  constructor
  · rintro ⟨draft, ⟨bundle, parsed, ⟨⟩, msgType, ⟨⟩, sigAlg, ⟨⟩, positive, ⟨⟩, named, ⟨⟩, inline,
      rulesArr, found, ⟨⟩, nonempty, target, targetFound, ⟨⟩, times, ⟨⟩, above, drafted⟩, texts,
      read, ⟨⟩, authentic, result⟩
    cases drafted
    cases result
    obtain ⟨unexpired, issued⟩ := checkTimes_eq_ok.1 times
    refine ⟨bundle, parsed, ⟨returnUnless_eq_ok.1 msgType, returnUnless_eq_ok.1 sigAlg, rfl,
      ⟨target, targetFound, rfl⟩, rulesArr, found, read⟩, ?_⟩
    exact ⟨returnUnless_eq_ok.1 positive, returnUnless_eq_ok.1 named,
      returnUnless_eq_ok.1 inline, (strings_ne_nil read).mp (returnUnless_eq_ok.1 nonempty),
      unexpired, issued, returnUnless_eq_ok.1 above, authentic⟩
  · rintro ⟨bundle, parsed, read, genuine⟩
    obtain ⟨target, targetFound, targetRead⟩ := read.target
    obtain ⟨rulesArr, found, texts⟩ := read.rules
    obtain ⟨scalars, _, ruleTexts⟩ := update
    obtain rfl := read.scalars
    subst targetRead
    refine ⟨_, ⟨bundle, parsed, (), returnUnless_eq_ok.2 read.msgType, (),
      returnUnless_eq_ok.2 read.sigAlg, (), returnUnless_eq_ok.2 genuine.positive, (),
      returnUnless_eq_ok.2 genuine.named, (), returnUnless_eq_ok.2 genuine.inline, rulesArr,
      found, (), returnUnless_eq_ok.2 ((strings_ne_nil texts).mpr genuine.nonempty), target,
      targetFound, (), checkTimes_eq_ok.2 ⟨genuine.unexpired, genuine.issued⟩, (),
      returnUnless_eq_ok.2 genuine.above, rfl⟩, ruleTexts, texts, (), genuine.authentic, rfl⟩

end Readings

section Decisions

variable {manager : Managerd.RuleManager} {crypto : Crypto} {platform : Platform}
  {parse : List UInt8 → Except (List UInt8) Value} {self : DeviceIdentity} {now maxSeq : Int}
  {text : List UInt8}

def Update.daemonVerdict (self : DeviceIdentity) (update : Update) : Decision :=
  if update.target.hits self then .applied update.ruleTexts else .skipped update.scalars.seq

def Update.appVerdict (strings : Strings) (self : DeviceIdentity) (update : Update) : Decision :=
  if hits strings self update.target then .applied update.ruleTexts
  else .skipped update.scalars.seq

/-- The daemon reads a genuine bundle in the text. -/
def AdmittedByDaemon (platform : Platform) (parse : List UInt8 → Except (List UInt8) Value)
    (now maxSeq : Int) (text : List UInt8) (update : Update) : Prop :=
  ∃ document, parse text = .ok document ∧ update.ReadByDaemon document ∧
    update.Genuine platform now maxSeq

/-- The Android manager reads a genuine bundle in the text. -/
def AdmittedByApp (platform : Platform) (now maxSeq : Int) (text : List UInt8) (update : Update) :
    Prop :=
  ∃ bundle, platform.json.ofText (platform.strings.ofBytes text) = .ok bundle ∧
    update.ReadByApp platform.json bundle ∧ update.Genuine platform now maxSeq

theorem daemonDecision_of_admitted (same : SameSigner manager crypto platform) {update : Update}
    (admitted : AdmittedByDaemon platform parse now maxSeq text update) :
    daemonDecision manager crypto parse self now maxSeq text = .ok (update.daemonVerdict self) := by
  obtain ⟨document, parsed, read, genuine⟩ := admitted
  obtain ⟨bundle, accepted, rules, target, seq⟩ := accept_of_genuine same read genuine
  simp only [daemonDecision, parsed, accepted, Update.daemonVerdict, rules, target, seq]

theorem admitted_of_daemonDecision (same : SameSigner manager crypto platform)
    {decision : Decision}
    (decided : daemonDecision manager crypto parse self now maxSeq text = .ok decision) :
    decision = .rejected ∨ ∃ update, AdmittedByDaemon platform parse now maxSeq text update ∧
      decision = update.daemonVerdict self := by
  rw [daemonDecision] at decided
  cases parsed : parse text with
  | error what =>
      simp only [parsed, Except.ok.injEq] at decided
      exact .inl decided.symm
  | ok document =>
      cases accepted : manager.accept crypto now maxSeq document with
      | error stop =>
          cases stop with
          | rejected err =>
              simp only [parsed, accepted, Except.ok.injEq] at decided
              exact .inl decided.symm
          | threw error => simp [parsed, accepted] at decided
      | ok bundle =>
          simp only [parsed, accepted, Except.ok.injEq] at decided
          obtain ⟨update, read, genuine, rules, target, seq⟩ := genuine_of_accept same accepted
          refine .inr ⟨update, ⟨document, parsed, read, genuine⟩, ?_⟩
          rw [← decided, Update.daemonVerdict, rules, target, seq]

theorem exists_daemonDecision :
    (∃ decision, daemonDecision manager crypto parse self now maxSeq text = .ok decision) ↔
      ∀ document, parse text = .ok document → Managerd.RuleKinds now maxSeq document := by
  rw [daemonDecision]
  cases parsed : parse text with
  | error what => simp
  | ok document =>
      simp only [Except.ok.injEq, forall_eq']
      rw [← @Managerd.RuleManager.contained_accept manager crypto]
      cases manager.accept crypto now maxSeq document with
      | ok bundle => simp
      | error stop =>
          cases stop with
          | rejected err => simp [Managerd.Checked.Contained]
          | threw error => simp [Managerd.Checked.Contained]

theorem appDecision_of_admitted {update : Update}
    (admitted : AdmittedByApp platform now maxSeq text update) :
    appDecision platform self now maxSeq text = .ok (update.appVerdict platform.strings self) := by
  simp only [appDecision, admits_iff.2 admitted, Update.appVerdict]

theorem admitted_of_appDecision {decision : Decision}
    (decided : appDecision platform self now maxSeq text = .ok decision) :
    decision = .rejected ∨ ∃ update, AdmittedByApp platform now maxSeq text update ∧
      decision = update.appVerdict platform.strings self := by
  rw [appDecision] at decided
  cases admitted : readDraft platform now maxSeq (platform.strings.ofBytes text) >>=
      authorize platform with
  | error leave =>
      cases leave with
      | returned err =>
          simp only [admitted, Except.ok.injEq] at decided
          exact .inl decided.symm
      | threw error => simp [admitted] at decided
  | ok update =>
      simp only [admitted, Except.ok.injEq] at decided
      exact .inr ⟨update, admits_iff.1 admitted, decided.symm⟩

theorem exists_appDecision :
    (∃ decision, appDecision platform self now maxSeq text = .ok decision) ↔
      ∀ draft, readDraft platform now maxSeq (platform.strings.ofBytes text) = .ok draft →
        draft.Sound := by
  have returns : Returns (readDraft platform now maxSeq (platform.strings.ofBytes text) >>=
      authorize platform) ↔ ∀ draft,
        readDraft platform now maxSeq (platform.strings.ofBytes text) = .ok draft →
          draft.Sound := by
    simp only [returns_bind, returns_readDraft, true_and, returns_authorize]
  rw [← returns, appDecision]
  cases readDraft platform now maxSeq (platform.strings.ofBytes text) >>= authorize platform with
  | ok update => simp
  | error leave =>
      cases leave with
      | returned err => simp [Returns]
      | threw error => simp [Returns]

private theorem daemonVerdict_ne (update : Update) : update.daemonVerdict self ≠ .rejected := by
  rw [Update.daemonVerdict]
  split <;> nofun

private theorem appVerdict_ne (strings : Strings) (update : Update) :
    update.appVerdict strings self ≠ .rejected := by
  rw [Update.appVerdict]
  split <;> nofun

/-- Two readings that call for one decision: both name this vehicle with the same rules, or
neither does and both have the same sequence number. -/
def Update.Alike (strings : Strings) (self : DeviceIdentity) (update other : Update) : Prop :=
  (update.target.hits self = true ∧ hits strings self other.target = true ∧
      update.ruleTexts = other.ruleTexts) ∨
    (update.target.hits self = false ∧ hits strings self other.target = false ∧
      update.scalars.seq = other.scalars.seq)

theorem verdicts_eq_iff {strings : Strings} {update other : Update} :
    update.daemonVerdict self = other.appVerdict strings self ↔
      update.Alike strings self other := by
  rw [Update.daemonVerdict, Update.appVerdict, Update.Alike]
  cases named : update.target.hits self <;> cases namedToo : hits strings self other.target <;>
    simp

theorem alike_of_decisions (same : SameSigner manager crypto platform) {decision : Decision}
    (daemon : daemonDecision manager crypto parse self now maxSeq text = .ok decision)
    (app : appDecision platform self now maxSeq text = .ok decision) :
    (∀ update, AdmittedByDaemon platform parse now maxSeq text update →
        ∃ other, AdmittedByApp platform now maxSeq text other ∧
          update.Alike platform.strings self other) ∧
      ∀ other, AdmittedByApp platform now maxSeq text other →
        ∃ update, AdmittedByDaemon platform parse now maxSeq text update ∧
          update.Alike platform.strings self other := by
  constructor
  · intro update admitted
    have verdict := @daemonDecision_of_admitted _ _ _ _ self _ _ _ same _ admitted
    obtain rfl : decision = update.daemonVerdict self := by
      rw [daemon] at verdict
      exact Except.ok.inj verdict
    obtain refused | ⟨other, admittedToo, alike⟩ := admitted_of_appDecision app
    · exact absurd refused (daemonVerdict_ne update)
    · exact ⟨other, admittedToo, verdicts_eq_iff.1 alike⟩
  · intro other admitted
    have verdict := @appDecision_of_admitted _ self _ _ _ _ admitted
    obtain rfl : decision = other.appVerdict platform.strings self := by
      rw [app] at verdict
      exact Except.ok.inj verdict
    obtain refused | ⟨update, admittedToo, alike⟩ := admitted_of_daemonDecision same daemon
    · exact absurd refused (appVerdict_ne platform.strings other)
    · exact ⟨update, admittedToo, verdicts_eq_iff.1 alike.symm⟩

theorem decisions_eq (same : SameSigner manager crypto platform) {first second : Decision}
    (daemon : daemonDecision manager crypto parse self now maxSeq text = .ok first)
    (app : appDecision platform self now maxSeq text = .ok second)
    (admitsToo : ∀ update, AdmittedByDaemon platform parse now maxSeq text update →
      ∃ other, AdmittedByApp platform now maxSeq text other ∧
        update.Alike platform.strings self other)
    (admittedToo : ∀ other, AdmittedByApp platform now maxSeq text other →
      ∃ update, AdmittedByDaemon platform parse now maxSeq text update ∧
        update.Alike platform.strings self other) : first = second := by
  obtain rfl | ⟨update, admitted, rfl⟩ := admitted_of_daemonDecision same daemon
  · obtain rfl | ⟨other, admitted, rfl⟩ := admitted_of_appDecision app
    · rfl
    · obtain ⟨update, admitted, alike⟩ := admittedToo other admitted
      rw [daemonDecision_of_admitted same admitted] at daemon
      exact absurd (Except.ok.inj daemon) (daemonVerdict_ne update)
  · obtain ⟨other, admitted, alike⟩ := admitsToo update admitted
    rw [appDecision_of_admitted admitted] at app
    rw [verdicts_eq_iff.2 alike]
    exact Except.ok.inj app

end Decisions

section Carried

variable (manager : Managerd.RuleManager) (crypto : Crypto) (platform : Platform)
  (parse : List UInt8 → Except (List UInt8) Value) (self : DeviceIdentity) (now : Int)
  (text : List UInt8)

private theorem applyChecked_run {env : Managerd.RuleStep → Fault}
    (readable : env .readMaxSeq = .none) (document : Value) (dir : Managerd.RulesDir) :
    (manager.applyChecked crypto env self now document).run dir =
      match manager.accept crypto now (Managerd.RuleManager.maxSeq dir) document with
      | .ok bundle => (manager.conclude env self bundle).run dir
      | .error stop => .threw stop dir := by
  rw [Managerd.RuleManager.applyChecked, Managerd.admitThen, Managerd.RuleManager.loadMaxSeq,
    Managerd.loadSeq, readable, Managerd.RuleManager.accept]
  cases Managerd.readRuleDraft now document with
  | error stop => rfl
  | ok draft =>
      simp only [Program.run_bind, Program.run_ofExcept_ok, Program.run_step_none,
        Outcome.andThen_returned]
      cases authorized : manager.authorize crypto (Managerd.RuleManager.maxSeq dir) draft with
      | error stop => simp [authorized, bind, Except.bind]
      | ok bundle => simp [authorized, bind, Except.bind]

/-- `applyBundle` carries the daemon's decision out. -/
theorem applyBundle_carries {env : Managerd.RuleStep → Fault}
    (readable : env .readMaxSeq = .none) (dir : Managerd.RulesDir) :
    let run := (manager.applyBundle crypto parse env self now text).run dir
    match daemonDecision manager crypto parse self now (Managerd.RuleManager.maxSeq dir) text with
    | .error error => run = .threw error dir
    | .ok .rejected => ∃ err, run = .returned (.rejected err) dir
    | .ok (.skipped seq) => run =
        ((Managerd.RuleManager.storeMaxSeq env seq >>= fun _ =>
          return .skipped).handle Managerd.RuleManager.refusal).run dir
    | .ok (.applied ruleTexts) => ∃ bundle : Managerd.RuleBundle, bundle.rules = ruleTexts ∧
        run = ((manager.switchOver env bundle).handle Managerd.RuleManager.refusal).run dir := by
  rw [daemonDecision, Managerd.RuleManager.applyBundle]
  cases parse text with
  | error what => exact ⟨_, rfl⟩
  | ok document =>
      simp only [Program.run_handle, applyChecked_run manager crypto self now readable]
      cases manager.accept crypto now (Managerd.RuleManager.maxSeq dir) document with
      | error stop =>
          cases stop with
          | rejected err => exact ⟨err, rfl⟩
          | threw error => rfl
      | ok bundle =>
          simp only [Managerd.RuleManager.conclude]
          cases bundle.header.target.hits self with
          | true => exact ⟨bundle, rfl, rfl⟩
          | false => rfl

/-- `apply` carries the Android manager's decision out. -/
theorem apply_carries (env : Call → Bool) (maxSeq : Int) :
    let result := apply platform env self now maxSeq (platform.strings.ofBytes text)
    match appDecision platform self now maxSeq text with
    | .error error => result = .error error
    | .ok .rejected => ∃ err, result = .ok (some err)
    | .ok (.skipped seq) => result = resultOf do
        perform env (saveMaxSeq seq)
        return some "SKIP"
    | .ok (.applied ruleTexts) => ∃ update : Update, update.ruleTexts = ruleTexts ∧
        result = resultOf do
          perform env (land update)
          return none := by
  have joined : apply platform env self now maxSeq (platform.strings.ofBytes text) = resultOf
      ((readDraft platform now maxSeq (platform.strings.ofBytes text) >>= authorize platform) >>=
        conclude platform env self) := by
    rw [apply, bind_assoc]
  simp only [joined, appDecision]
  cases readDraft platform now maxSeq (platform.strings.ofBytes text) >>= authorize platform with
  | error leave =>
      cases leave with
      | returned err => exact ⟨err, rfl⟩
      | threw error => rfl
  | ok update =>
      cases named : hits platform.strings self update.target with
      | true =>
          simp only [bind, Except.bind, conclude, named, if_true]
          exact ⟨update, rfl, rfl⟩
      | false => simp [bind, Except.bind, conclude, named]

end Carried

section Sample

/-- A rule bundle around the text of its rollback flag. -/
def bundleText (flag : String) : String :=
  "\x7b\"msg_type\":\"rule_update\",\"sig_alg\":\"Ed25519\",\"manufacturer\":\"\"," ++ flag ++
    "\"seq\":1,\"version\":\"v8\",\"upgrade_type\":1,\"issued_at\":1000,\"expires_at\":2000," ++
    "\"pubkey_id\":\"0000000000000000\",\"signature\":\"AAAA\",\"rules\":[\"alert ip\"]," ++
    "\"target\":\x7b\"ecu\":\"all\",\"nodeType\":\"all\",\"vmodel\":\"all\"\x7d\x7d"

def flagText : String := "\"rollback\":false,"

def bundleMembers (flag : List (String × OrgValue)) : List (String × OrgValue) :=
  flag ++ [("msg_type", .string "rule_update"), ("sig_alg", .string "Ed25519"),
    ("manufacturer", .string ""), ("seq", .long 1), ("version", .string "v8"),
    ("upgrade_type", .long 1), ("issued_at", .long 1000), ("expires_at", .long 2000),
    ("pubkey_id", .string "0000000000000000"), ("signature", .string "AAAA"),
    ("rules", .array [.string "alert ip"]),
    ("target", .object [("ecu", .string "all"), ("nodeType", .string "all"),
      ("vmodel", .string "all")])]

def bundleOfText (text : String) : Except String (List (String × OrgValue)) :=
  if text = bundleText "" then .ok (bundleMembers [])
  else if text = bundleText flagText then .ok (bundleMembers [("rollback", .boolean false)])
  else .error "End of input"

/-- Every signature verifies here, as it does for the daemon's sample. -/
def acceptingPlatform : Platform where
  json := documented javaSample bundleOfText
  security := {
    decodeBase64 := platformSample.security.decodeBase64
    Key := Unit
    generatePublic := fun _ => .ok ()
    verify := fun _ _ _ => .ok true
    encoded := fun _ => List.replicate 44 0
    sha256 := fun _ => List.replicate 32 0 }
  strings := {
    ofBytes := fun bytes =>
      if bytes = utf8 (bundleText "") then bundleText ""
      else if bytes = utf8 (bundleText flagText) then bundleText flagText
      else ""
    equalsIgnoreCase := javaSample.equalsIgnoreCase }
  signingPubkeyB64 := "AAAA"

theorem sameSigner_sample :
    SameSigner Managerd.ruleManagerSample Managerd.acceptingCrypto acceptingPlatform where
  check canonical signature := by
    have pub : Managerd.base64Decode (utf8 "AAAA") = some [0, 0, 0] := by
      decide
    have key : Managerd.configuredKey Managerd.acceptingCrypto "AAAA" = .ok () := by
      rw [Managerd.configuredKey, pub]
      rfl
    have verifies : ∀ canonical sig, verifyEd25519 acceptingPlatform "Ed25519 signature mismatch"
        canonical sig = .ok () := by
      intro canonical sig
      simp only [verifyEd25519, acceptingPlatform, platformSample, pub]
      rfl
    simp only [Managerd.verifySignature, Managerd.ruleManagerSample, bind_eq_ok, key, verifies,
      and_true]
    cases decoded : Managerd.base64Decode (utf8 signature) with
    | none =>
        simp [acceptingPlatform, platformSample, decoded, Managerd.reject]
    | some sig =>
        simp only [acceptingPlatform, platformSample, decoded, Except.ok.injEq, exists_eq',
          iff_true]
        exact ⟨⟨by decide⟩, Managerd.require_of _, (), rfl, rfl⟩
  fingerprint want := by
    have daemon : Managerd.configuredPubkeyId Managerd.acceptingCrypto "AAAA" =
        .ok "0000000000000000" := by
      decide
    have app : configuredPubkeyId acceptingPlatform = some "0000000000000000" := by
      decide
    simp only [Managerd.ruleManagerSample, daemon, app, Except.ok.injEq, Option.some.injEq]
  folds want pubkeyId _ := by
    simp [acceptingPlatform, javaSample]

private theorem toList_append_of {first second : String} {symbols others : List Char}
    (spelled : first.toList = symbols) (alsoSpelled : second.toList = others) :
    (first ++ second).toList = symbols ++ others := by
  rw [String.toList_append, spelled, alsoSpelled]

-- A long literal is spelled out once: unfolding `String.toList` takes quadratic time.
private theorem parseSample_spelled {text : String} {symbols : List Char}
    (spelled : text.toList = symbols) :
    Managerd.parseSample (utf8 text) =
      match (do
        let (value, rest) ← Json.parseValue Managerd.envelopeLibrarySample.strtod
          (2 * symbols.length + 2) (Json.skipBom symbols)
        if Json.skipWhitespace rest = [] then some value else none) with
      | some document => .ok document
      | none => .error [] := by
  rw [Managerd.parseSample, Managerd.parseBytes, Managerd.decodeUtf8_utf8, ← spelled,
    String.length_toList]
  rfl

private theorem append_cancel {before middle first second third : String}
    (same : before ++ middle ++ first ++ second ++ third =
      before ++ "" ++ first ++ second ++ third) : middle = "" := by
  have symbols := congrArg String.toList same
  simp only [String.toList_append, List.append_assoc, List.append_cancel_left_eq] at symbols
  exact String.toList_eq_nil_iff.mp (List.append_left_eq_self.mp symbols)

private theorem flagText_differs : bundleText flagText ≠ bundleText "" := by
  intro same
  exact absurd (append_cancel same) (by decide)

end Sample

end Idsm.Android.RuleManager
