import Idsm.Android.ConfigManager
import Idsm.Android.LogSnapshot
import Idsm.Android.OrgValue
import Idsm.Android.RuleManager

/-! When an exception leaves a listener of the Android manager: only calls outside the
handlers can throw, and each function returns exactly when those it reaches succeed. -/

set_option autoImplicit false

namespace Idsm.Android

open Idsm.Foundation
open Idsm.Managerd (DeviceIdentity Scalars)

/-- No exception leaves the call. -/
def Returns {α : Type} (call : Apply α) : Prop := ∀ error, call ≠ .error (.threw error)

section Calls

variable {α β : Type}

@[simp] theorem returns_ok (value : α) : Returns (.ok value) := fun _ impossible => nomatch impossible

@[simp] theorem returns_pure (value : α) : Returns (pure value) := returns_ok value

@[simp] theorem returns_bind (call : Apply α) (next : α → Apply β) :
    Returns (call >>= next) ↔ Returns call ∧ ∀ value, call = .ok value → Returns (next value) := by
  cases call with
  | ok value => simp [bind, Except.bind]
  | error leave =>
      cases leave with
      | returned err => simp [Returns, bind, Except.bind]
      | threw error => simp [Returns, bind, Except.bind]

@[simp] theorem returns_map (call : Apply α) (result : α → β) :
    Returns (result <$> call) ↔ Returns call := by
  cases call with
  | ok value => simp
  | error leave =>
      cases leave with
      | returned err => simp [Returns, Functor.map, Except.map]
      | threw error => simp [Returns, Functor.map, Except.map]

@[simp] theorem returns_returnUnless (condition : Prop) [Decidable condition] (err : String) :
    Returns (returnUnless condition err) := by
  by_cases holds : condition
  · simp [returnUnless, holds]
  · simp [Returns, returnUnless, holds]

@[simp] theorem returns_catching (called : Option α) (err : String) :
    Returns (catching called err) := by
  cases called with
  | some value => simp [catching]
  | none => simp [Returns, catching]

@[simp] theorem returns_throwing (called : Option α) (error : Thrown) :
    Returns (throwing called error) ↔ called.isSome = true := by
  cases called with
  | some value => simp [throwing]
  | none => simp [Returns, throwing]

theorem throwing_eq_ok {called : Option α} {error : Thrown} {value : α} :
    throwing called error = .ok value ↔ called = some value := by
  cases called with
  | some found => simp [throwing]
  | none => simp [throwing]

theorem catching_eq_ok {called : Option α} {err : String} {value : α} :
    catching called err = .ok value ↔ called = some value := by
  cases called with
  | some found => simp [catching]
  | none => simp [catching]

theorem returnUnless_eq_ok {condition : Prop} [Decidable condition] {err : String} :
    returnUnless condition err = .ok () ↔ condition := by
  by_cases holds : condition
  · simp [returnUnless, holds]
  · simp [returnUnless, holds]

@[simp] theorem returns_perform {Call : Type} (env : Call → Bool) (calls : List Call) :
    Returns (perform env calls) ↔ ∀ call ∈ calls, env call = true := by
  induction calls with
  | nil => simp [perform]
  | cons call later ih =>
      cases succeeds : env call with
      | true => simp [perform, succeeds, ih]
      | false => simp [Returns, perform, succeeds]

theorem perform_eq_ok {Call : Type} {env : Call → Bool} {calls : List Call} :
    perform env calls = .ok () ↔ ∀ call ∈ calls, env call = true := by
  induction calls with
  | nil => simp [perform]
  | cons call later ih =>
      cases succeeds : env call with
      | true => simp [perform, succeeds, ih]
      | false => simp [perform, succeeds]

/-- A listener returns when `apply` does. -/
theorem exists_resultOf (call : Apply (Option String)) :
    (∃ ending, (resultOf call).map endingOf = .ok ending) ↔ Returns call := by
  cases call with
  | ok result => simp [resultOf, Except.map]
  | error leave =>
      cases leave with
      | returned err => simp [resultOf, Except.map, Returns]
      | threw error => simp [resultOf, Except.map, Returns]

end Calls

section Fields

variable (library : OrgJson)

@[simp] theorem returns_parseBundle (text : String) : Returns (parseBundle library text) := by
  cases parsed : library.ofText text with
  | ok bundle => simp [parseBundle, parsed]
  | error message => simp [Returns, parseBundle, parsed]

@[simp] theorem returns_requireText (bundle : library.Object) (name text : String) :
    Returns (requireText library bundle name text) := returns_returnUnless _ _

@[simp] theorem returns_checkTimes (nowSec : Int) (scalars : Scalars) :
    Returns (checkTimes nowSec scalars) := by
  simp [checkTimes]

@[simp] theorem returns_checkSeq (maxSeq : Int) (scalars : Scalars) :
    Returns (checkSeq maxSeq scalars) := returns_returnUnless _ _

end Fields

/-- The signature decodes, and the key that verifies it has an identifier. -/
def SignatureReturns (platform : Platform) (mismatch : String) (canonical : List UInt8)
    (scalars : Scalars) : Prop :=
  ∃ sigBytes, platform.security.decodeBase64 scalars.signature = .ok sigBytes ∧
    (verifyEd25519 platform mismatch canonical sigBytes = .ok () →
      (configuredPubkeyId platform).isSome = true)

theorem returns_authenticate {platform : Platform} {mismatch : String} {canonical : List UInt8}
    {scalars : Scalars} :
    Returns (authenticate platform mismatch canonical scalars) ↔
      SignatureReturns platform mismatch canonical scalars := by
  cases decoded : platform.security.decodeBase64 scalars.signature with
  | error message =>
      simp [authenticate, SignatureReturns, decoded, Except.toOption, throwing, Returns, bind,
        Except.bind]
  | ok sigBytes =>
      rw [authenticate, decoded]
      cases verified : verifyEd25519 platform mismatch canonical sigBytes with
      | error message =>
          simp [SignatureReturns, decoded, verified, Except.toOption, throwing, Returns, bind,
            Except.bind]
      | ok checked =>
          simp only [SignatureReturns, decoded, Except.ok.injEq, exists_eq_left', verified,
            forall_const, Except.toOption]
          simp [throwing_eq_ok, verified]

namespace RuleManager

variable (platform : Platform)

@[simp] theorem returns_readDraft (nowSec maxSeq : Int) (text : String) :
    Returns (readDraft platform nowSec maxSeq text) := by
  simp [readDraft]

/-- The elements of the rules array read as strings, and the signature can be checked. -/
def Draft.Sound (draft : Draft platform.json) : Prop :=
  ∃ ruleTexts, platform.json.strings draft.rulesArr = some ruleTexts ∧
    SignatureReturns platform "Ed25519 signature mismatch"
      (Update.canonical ⟨draft.scalars, draft.target, ruleTexts⟩) draft.scalars

/-- The file operations of an authentic bundle. -/
def Update.calls (self : DeviceIdentity) (update : Update) : List Call :=
  if hits platform.strings self update.target then land update
  else saveMaxSeq update.scalars.seq

theorem returns_authorize (draft : Draft platform.json) :
    Returns (authorize platform draft) ↔ draft.Sound := by
  rw [authorize, Draft.Sound]
  cases read : platform.json.strings draft.rulesArr with
  | none => simp
  | some ruleTexts => simp [throwing, returns_authenticate]

theorem returns_conclude (env : Call → Bool) (self : DeviceIdentity) (update : Update) :
    Returns (conclude platform env self update) ↔
      ∀ call ∈ update.calls platform self, env call = true := by
  by_cases hit : hits platform.strings self update.target = true
  · simp [conclude, Update.calls, hit]
  · simp [conclude, Update.calls, hit]

theorem returns_iff (env : Call → Bool) (self : DeviceIdentity) (nowSec maxSeq : Int)
    (payload : List UInt8) :
    (∃ ending, onCloudMessage platform env self nowSec maxSeq payload = .ok ending) ↔
      ∀ draft, readDraft platform nowSec maxSeq (platform.strings.ofBytes payload) = .ok draft →
        draft.Sound ∧ ∀ update, authorize platform draft = .ok update →
          ∀ call ∈ update.calls platform self, env call = true := by
  rw [onCloudMessage, apply, exists_resultOf]
  simp only [returns_bind, returns_readDraft, true_and, returns_authorize, returns_conclude]

end RuleManager

namespace ConfigManager

variable {platform : Platform}

section Items

variable {library : OrgJson} {configType : Int}

private theorem isSome_mapM {α β : Type} {f : α → Option β} {items : List α}
    (each : ∀ item ∈ items, (f item).isSome = true) : (items.mapM f).isSome = true := by
  induction items with
  | nil => simp
  | cons item later ih =>
      obtain ⟨value, found⟩ := Option.isSome_iff_exists.mp (each item List.mem_cons_self)
      obtain ⟨values, others⟩ := Option.isSome_iff_exists.mp
        (ih fun other member => each other (List.mem_cons_of_mem _ member))
      simp [List.mapM_cons, found, others]

theorem strings_of_checkEntries {name : String} {arr : library.Array} {indices : List Nat}
    (checked : checkEntries library name arr indices = .ok ()) :
    ∀ j ∈ indices, (library.stringAt arr j).isSome = true := by
  induction indices with
  | nil => simp
  | cons j later ih =>
      simp only [checkEntries, Managerd.bind_eq_ok, catching_eq_ok] at checked
      obtain ⟨v, found, ⟨⟩, _, rest⟩ := checked
      intro index member
      cases List.mem_cons.mp member with
      | inl same => simp [same, found]
      | inr behind => exact ih rest index behind

/-- What the checks of a value let pass can be read again. -/
theorem readContent_of_checkContent {name : String} {it : library.Object}
    (checked : checkContent library configType name it = .ok ()) :
    (readContent library configType it).isSome = true := by
  rw [checkContent] at checked
  rw [readContent]
  split at checked
  next list =>
    simp only [Managerd.bind_eq_ok, catching_eq_ok] at checked
    obtain ⟨⟨⟩, _, arr, found, entries⟩ := checked
    obtain ⟨texts, read⟩ := Option.isSome_iff_exists.mp
      (isSome_mapM (strings_of_checkEntries entries))
    simp [list, found, OrgJson.strings, read]
  next enable =>
    simp only [Managerd.bind_eq_ok, catching_eq_ok, returnUnless_eq_ok] at checked
    obtain ⟨⟨⟩, _, obj, found, ⟨⟩, _, flags⟩ := checked
    have readable : ∀ key ∈ library.keys obj,
        ((library.getInt obj key).map fun v => (key, decide (v = 1))).isSome = true := by
      intro key member
      have digit := flags key member
      rw [OrgJson.optInt] at digit
      cases number : library.getInt obj key with
      | none => simp [number] at digit
      | some v => simp
    obtain ⟨read, entries⟩ := Option.isSome_iff_exists.mp (isSome_mapM readable)
    simp [enable, found, entries]

@[simp] theorem returns_checkEntries (name : String) (arr : library.Array) (indices : List Nat) :
    Returns (checkEntries library name arr indices) := by
  induction indices with
  | nil => simp [checkEntries]
  | cons j later ih => simp [checkEntries, ih]

@[simp] theorem returns_checkContent (configType : Int) (name : String) (it : library.Object) :
    Returns (checkContent library configType name it) := by
  rw [checkContent]
  split
  next => simp
  next => simp

@[simp] theorem returns_readItem (configType : Int) (itemsArr : library.Array) (i : Nat) :
    Returns (readItem library configType itemsArr i) := by
  simp only [readItem, returns_bind, returns_catching, returns_returnUnless, returns_checkContent,
    returns_throwing, returns_pure, true_and, implies_true, and_true]
  intro it _ _ _ ⟨⟩ checked
  exact readContent_of_checkContent checked

@[simp] theorem returns_readItems (configType : Int) (itemsArr : library.Array)
    (indices : List Nat) : Returns (readItems library configType itemsArr indices) := by
  induction indices with
  | nil => simp [readItems]
  | cons i later ih => simp [readItems, ih]

/-- Every item that was read lands in a file. -/
theorem itemFile_of_readItems {itemsArr : library.Array} {indices : List Nat}
    {items : List (Item library)}
    (read : readItems library configType itemsArr indices = .ok items) :
    ∀ item ∈ items, (itemFile library configType item).isSome = true := by
  induction indices generalizing items with
  | nil =>
      cases read
      simp
  | cons i later ih =>
      simp only [readItems, Managerd.bind_eq_ok] at read
      obtain ⟨first, readFirst, others, readOthers, result⟩ := read
      cases result
      intro item member
      cases List.mem_cons.mp member with
      | inr behind => exact ih readOthers item behind
      | inl same =>
          simp only [readItem, Managerd.bind_eq_ok, throwing_eq_ok] at readFirst
          obtain ⟨it, _, _, _, _, _, content, readable, _, _, result⟩ := readFirst
          cases result
          subst same
          rw [readContent] at readable
          rw [itemFile]
          split
          next list =>
            rw [if_pos list] at readable
            simp only [Option.bind_eq_bind, Option.bind_eq_some_iff] at readable
            obtain ⟨arr, found, texts, entries, _⟩ := readable
            simp [found, entries]
          next enable =>
            rw [if_neg enable] at readable
            simp only [Option.bind_eq_bind, Option.bind_eq_some_iff] at readable
            obtain ⟨obj, found, _⟩ := readable
            simp [found]

end Items

theorem readDraft_items {nowSec maxSeq : Int} {text : String} {draft : Draft platform.json}
    (read : readDraft platform nowSec maxSeq text = .ok draft) :
    ∀ item ∈ draft.items,
      (itemFile platform.json draft.scalars.bundleType item).isSome = true := by
  simp only [readDraft, Managerd.bind_eq_ok] at read
  obtain ⟨_, _, _, _, _, _, _, _, _, _, _, _, _, _, _, _, _, _, items, readItems, _, _, _, _,
    result⟩ := read
  cases result
  exact itemFile_of_readItems readItems

@[simp] theorem returns_readDraft (nowSec maxSeq : Int) (text : String) :
    Returns (readDraft platform nowSec maxSeq text) := by
  simp [readDraft]

section Landing

variable (env : Call → Bool) (nowSec : Int)

/-- The versions object behind so many items. -/
def versionsAfter (items : List (Item platform.json)) (versions : platform.json.Object) :
    platform.json.Object :=
  items.foldl (fun versions item =>
    platform.json.putString versions item.item.name item.item.itemVersion) versions

/-- The file operations of the items. -/
def itemCalls (scalars : Scalars) (items : List (Item platform.json × Nat)) : List Call :=
  items.flatMap fun entry =>
    match itemFile platform.json scalars.bundleType entry.1 with
    | none => []
    | some (file, content) =>
        [.writeItem entry.2 file content,
          .appendAudit entry.2 (auditLine platform nowSec scalars entry.1.item.name)]

section Items

variable {scalars : Scalars} {items : List (Item platform.json × Nat)}

private theorem itemCalls_cons {entry : Item platform.json × Nat} {file content : String}
    (found : itemFile platform.json scalars.bundleType entry.1 = some (file, content)) :
    itemCalls nowSec scalars (entry :: items) =
      [.writeItem entry.2 file content,
        .appendAudit entry.2 (auditLine platform nowSec scalars entry.1.item.name)] ++
      itemCalls nowSec scalars items := by
  simp [itemCalls, found]

theorem landItems_of_calls (versions : platform.json.Object)
    (readable : ∀ entry ∈ items,
      (itemFile platform.json scalars.bundleType entry.1).isSome = true)
    (succeed : ∀ call ∈ itemCalls nowSec scalars items, env call = true) :
    landItems platform env nowSec scalars items versions =
      .ok (versionsAfter (items.map Prod.fst) versions) := by
  induction items generalizing versions with
  | nil => rfl
  | cons entry rest ih =>
      obtain ⟨⟨file, content⟩, found⟩ :=
        Option.isSome_iff_exists.mp (readable entry List.mem_cons_self)
      rw [itemCalls_cons nowSec found, List.forall_mem_append] at succeed
      have others := ih
        (platform.json.putString versions entry.1.item.name entry.1.item.itemVersion)
        (fun other member => readable other (List.mem_cons_of_mem _ member)) succeed.2
      simp only [landItems, found, throwing, perform_eq_ok.2 succeed.1, others, bind, Except.bind]
      rfl

theorem returns_landItems (versions : platform.json.Object)
    (readable : ∀ entry ∈ items,
      (itemFile platform.json scalars.bundleType entry.1).isSome = true) :
    Returns (landItems platform env nowSec scalars items versions) ↔
      ∀ call ∈ itemCalls nowSec scalars items, env call = true := by
  induction items generalizing versions with
  | nil => simp [landItems, itemCalls]
  | cons entry rest ih =>
      obtain ⟨⟨file, content⟩, found⟩ :=
        Option.isSome_iff_exists.mp (readable entry List.mem_cons_self)
      have others := fun versions => ih versions fun other member =>
        readable other (List.mem_cons_of_mem _ member)
      simp only [landItems, found, returns_bind, returns_throwing, Option.isSome_some, true_and,
        throwing_eq_ok, Option.some.injEq, forall_eq', returns_perform, others,
        itemCalls_cons nowSec found, List.forall_mem_append]
      exact ⟨fun both => ⟨both.1, both.2 () (perform_eq_ok.2 both.1)⟩,
        fun both => ⟨both.1, fun _ _ => both.2⟩⟩

end Items

/-- The file operations of an authentic bundle, and the text of the versions. -/
def Draft.Lands (self : DeviceIdentity) (stored : Option String) (draft : Draft platform.json) :
    Prop :=
  if hits platform.strings self draft.target = true then
    (∀ call ∈ itemCalls nowSec draft.scalars draft.items.zipIdx, env call = true) ∧
    ∃ text, platform.json.indented (versionsAfter draft.items (readVersions platform stored)) =
        some text ∧
      ∀ call ∈ .writeVersions (text ++ "\n") :: saveMaxSeq draft.scalars.seq, env call = true
  else ∀ call ∈ saveMaxSeq draft.scalars.seq, env call = true

theorem returns_conclude {self : DeviceIdentity} {stored : Option String}
    {draft : Draft platform.json}
    (readable : ∀ item ∈ draft.items,
      (itemFile platform.json draft.scalars.bundleType item).isSome = true) :
    Returns (conclude platform env self nowSec stored draft) ↔
      draft.Lands env nowSec self stored := by
  have entries : ∀ entry ∈ draft.items.zipIdx,
      (itemFile platform.json draft.scalars.bundleType entry.1).isSome = true := by
    intro entry member
    exact readable entry.1 (List.fst_mem_of_mem_zipIdx member)
  by_cases hit : hits platform.strings self draft.target = true
  · have landed := landItems_of_calls env nowSec (readVersions platform stored) entries
    rw [List.zipIdx_map_fst] at landed
    simp only [conclude, Draft.Lands, hit, if_true, land, returns_bind,
      returns_landItems env nowSec (readVersions platform stored) entries, returns_throwing,
      throwing_eq_ok, returns_perform, returns_pure, implies_true, and_true]
    refine and_congr_right fun succeed => ?_
    simp only [landed succeed, Except.ok.injEq, forall_eq']
    cases platform.json.indented (versionsAfter draft.items (readVersions platform stored)) with
    | none => simp
    | some text => simp
  · simp [conclude, Draft.Lands, hit]

end Landing

theorem returns_iff (env : Call → Bool) (self : DeviceIdentity) (nowSec maxSeq : Int)
    (stored : Option String) (payload : List UInt8) :
    (∃ ending, onCloudMessage platform env self nowSec maxSeq stored payload = .ok ending) ↔
      ∀ draft, readDraft platform nowSec maxSeq (platform.strings.ofBytes payload) = .ok draft →
        SignatureReturns platform "verify failed" draft.canonical draft.scalars ∧
        (authenticate platform "verify failed" draft.canonical draft.scalars = .ok () →
          draft.Lands env nowSec self stored) := by
  rw [onCloudMessage, apply, exists_resultOf]
  simp only [returns_bind, returns_readDraft, true_and, returns_authenticate]
  refine forall_congr' fun draft => imp_congr_right fun read => and_congr_right' ?_
  simp only [returns_conclude env nowSec (readDraft_items read)]
  exact ⟨fun each => each (), fun lands _ => lands⟩

end ConfigManager

namespace LogSnapshot

variable (library : OrgJson)

/-- The members of the record and of the list that are read outside any handler can be read,
and a record with new indices can be written. -/
def ResendReturns (store : NackStore) (record : library.Object) (missing : library.Array) : Prop :=
  ∃ total asked, library.getInt record "total_chunks" = some total ∧
    (List.range (library.length missing)).mapM (library.intAt missing) = some asked ∧
    (missingIndices total asked ≠ [] →
      ∃ text, library.indented
          (library.putInts record "next_chunks" (missingIndices total asked)) = some text ∧
        store.writes text = true)

theorem exists_saveMeta {store : NackStore} {record : library.Object} :
    (∃ saved, saveMeta library store record = .ok saved) ↔
      ∃ text, library.indented record = some text ∧ store.writes text = true := by
  rw [saveMeta]
  cases library.indented record with
  | none => simp
  | some text =>
      cases written : store.writes text with
      | true => simp [written]
      | false => simp [written]

theorem exists_resend {store : NackStore} {record : library.Object} {missing : library.Array} :
    (∃ accepted, resend library store record missing = .ok accepted) ↔
      ResendReturns library store record missing := by
  rw [resend, ResendReturns]
  cases counted : library.getInt record "total_chunks" with
  | none => simp
  | some total =>
      cases read : (List.range (library.length missing)).mapM (library.intAt missing) with
      | none => simp
      | some asked =>
          simp only [Option.some.injEq, exists_and_left, exists_eq_left']
          by_cases empty : missingIndices total asked = []
          · exact iff_of_true ⟨false, if_pos empty⟩ fun indices => absurd empty indices
          · rw [if_neg empty, ← exists_saveMeta]
            cases saveMeta library store
                (library.putInts record "next_chunks" (missingIndices total asked)) with
            | ok saved => exact iff_of_true ⟨true, rfl⟩ fun _ => ⟨saved, rfl⟩
            | error error =>
                exact iff_of_false (fun ⟨_, impossible⟩ => nomatch impossible)
                  fun saves => nomatch (saves empty).choose_spec

theorem returns_iff (store : NackStore) (nowMs : Int) (payload : String) :
    (∃ accepted, onNack library store nowMs payload = .ok accepted) ↔
      ∀ record missing, admitted library store nowMs payload = some (record, missing) →
        ResendReturns library store record missing := by
  rw [onNack]
  cases admitted library store nowMs payload with
  | none => exact iff_of_true ⟨false, rfl⟩ fun _ _ impossible => nomatch impossible
  | some entry =>
      obtain ⟨record, missing⟩ := entry
      refine (exists_resend library).trans ⟨?_, fun each => each record missing rfl⟩
      intro sends _ _ same
      cases same
      exact sends

end LogSnapshot

/-- Each of the three listeners returns, a bundle's with exactly one ending, if and only if
the unguarded calls that its payload reaches succeed. -/
theorem listeners_return_iff (platform : Platform) (self : DeviceIdentity) (now maxSeq : Int) :
    (∀ (env : RuleManager.Call → Bool) (payload : List UInt8),
      (∃ ending, RuleManager.onCloudMessage platform env self now maxSeq payload = .ok ending) ↔
        ∀ draft, RuleManager.readDraft platform now maxSeq (platform.strings.ofBytes payload) =
            .ok draft →
          draft.Sound ∧ ∀ update, RuleManager.authorize platform draft = .ok update →
            ∀ call ∈ update.calls platform self, env call = true) ∧
    (∀ (env : ConfigManager.Call → Bool) (stored : Option String) (payload : List UInt8),
      (∃ ending,
          ConfigManager.onCloudMessage platform env self now maxSeq stored payload = .ok ending) ↔
        ∀ draft, ConfigManager.readDraft platform now maxSeq (platform.strings.ofBytes payload) =
            .ok draft →
          SignatureReturns platform "verify failed" draft.canonical draft.scalars ∧
          (authenticate platform "verify failed" draft.canonical draft.scalars = .ok () →
            draft.Lands env now self stored)) ∧
    ∀ (store : LogSnapshot.NackStore) (payload : List UInt8),
      (∃ accepted, LogSnapshot.onNack platform.json store now
          (platform.strings.ofBytes payload) = .ok accepted) ↔
        ∀ record missing, LogSnapshot.admitted platform.json store now
            (platform.strings.ofBytes payload) = some (record, missing) →
          LogSnapshot.ResendReturns platform.json store record missing :=
  ⟨fun env payload => RuleManager.returns_iff platform env self now maxSeq payload,
    fun env stored payload => ConfigManager.returns_iff env self now maxSeq stored payload,
    fun store _ => LogSnapshot.returns_iff platform.json store now _⟩

section Sample

/-- Enough of Java for documents of texts and whole numbers. -/
def javaSample : Java where
  longOfText _ := none
  intOfText _ := none
  equalsIgnoreCase first second := Managerd.toLower first == Managerd.toLower second
  valueOf _ := ""
  write _ := some ""
  writeIndented _ := some ""

/-- A rule bundle that nobody signed. -/
def unsignedText : String :=
  "\x7b\"msg_type\":\"rule_update\",\"sig_alg\":\"Ed25519\",\"seq\":1,\"version\":\"v8\"," ++
    "\"upgrade_type\":1,\"rules\":[\"alert ip\"],\"target\":\x7b\x7d," ++
    "\"issued_at\":1000,\"expires_at\":2000,\"signature\":\"A\"\x7d"

def unsignedBundle : List (String × OrgValue) :=
  [("msg_type", .string "rule_update"), ("sig_alg", .string "Ed25519"), ("seq", .long 1),
    ("version", .string "v8"), ("upgrade_type", .long 1), ("rules", .array [.string "alert ip"]),
    ("target", .object []), ("issued_at", .long 1000), ("expires_at", .long 2000),
    ("signature", .string "A")]

/-- No signature verifies here; a single character is no Base64 group. -/
def platformSample : Platform where
  json := documented javaSample fun text =>
    if text = unsignedText then .ok unsignedBundle else .error "End of input"
  security := {
    decodeBase64 := fun text =>
      match Managerd.base64Decode (utf8 text) with
      | some bytes => .ok bytes
      | none => .error "bad base-64"
    Key := Unit
    generatePublic := fun _ => .ok ()
    verify := fun _ _ _ => .ok false
    encoded := fun _ => List.replicate 44 0
    sha256 := fun _ => [] }
  strings := {
    ofBytes := fun bytes => if bytes = utf8 unsignedText then unsignedText else ""
    equalsIgnoreCase := javaSample.equalsIgnoreCase }
  signingPubkeyB64 := "AAAA"

/-- An unsigned payload makes the rule listener throw. -/
theorem malformed_signature_throws :
    ¬ ∃ ending, RuleManager.onCloudMessage platformSample (fun _ => true) ⟨"0x02", "t99", ["HIDPS"]⟩
      1500 0 (utf8 unsignedText) = .ok ending := by
  have thrown : RuleManager.onCloudMessage platformSample (fun _ => true)
      ⟨"0x02", "t99", ["HIDPS"]⟩ 1500 0 (utf8 unsignedText) = .error .base64 := by
    have read : platformSample.strings.ofBytes (utf8 unsignedText) = unsignedText := by
      simp only [platformSample, if_true]
    rw [RuleManager.onCloudMessage, read]
    decide +kernel
  rw [thrown]
  exact fun ⟨_, impossible⟩ => nomatch impossible

end Sample

end Idsm.Android
