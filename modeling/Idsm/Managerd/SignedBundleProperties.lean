import Idsm.Managerd.SignedBundle

/-! Which parts of a canonical text its bytes determine. The sequence number, the
validity times, the bundle type and the payload lines are always determined; the
fields between the tenant and the vehicle model are when none of them carries a
separator. -/

set_option autoImplicit false

namespace Idsm.Managerd

open Idsm.Foundation

/-! What a passed check says. -/

theorem requireText_eq_ok {bundle : Json.Value} {key text : String} :
    requireText bundle key text = .ok () ↔ (bundle.field key).getString = .ok text := by
  simp only [requireText, bind_eq_ok, unguarded_eq_ok]
  constructor
  · rintro ⟨found, read, ⟨same⟩, -, -⟩
    rw [read, same]
  · intro read
    exact ⟨text, read, ⟨rfl⟩, require_of rfl, rfl⟩

theorem checkTimes_eq_ok {now : Int} {scalars : Scalars} :
    checkTimes now scalars = .ok () ↔
      now - kClockSkewToleranceSec ≤ scalars.expiresAt ∧
        scalars.issuedAt ≤ now + kClockSkewToleranceSec := by
  simp only [checkTimes, bind_eq_ok]
  constructor
  · rintro ⟨⟨unexpired⟩, -, ⟨issued⟩, -, -⟩
    exact ⟨unexpired, issued⟩
  · rintro ⟨unexpired, issued⟩
    exact ⟨⟨unexpired⟩, require_of _, ⟨issued⟩, require_of _, rfl⟩

theorem checkSeq_eq_ok {maxSeq : Int} {scalars : Scalars} :
    checkSeq maxSeq scalars = .ok () ↔ maxSeq < scalars.seq := by
  simp only [checkSeq, bind_eq_ok]
  exact ⟨fun ⟨⟨above⟩, _⟩ => above, fun above => ⟨⟨above⟩, require_of _, rfl⟩⟩

theorem requireFields_eq_ok {keys : List String} {bundle : Json.Value} :
    requireFields keys bundle = .ok () ↔ ∀ key ∈ keys, bundle.contains key = true := by
  rw [requireFields]
  cases missing : keys.find? fun key => !bundle.contains key with
  | none => simpa using missing
  | some key =>
      have member := List.mem_of_find?_eq_some missing
      have absent := List.find?_some missing
      simp only [reject, reduceCtorEq, false_iff, not_forall]
      exact ⟨key, member, by simpa using absent⟩

theorem targetText_eq_ok {value : Json.Value} {key text : String} :
    targetText value key = .ok text ↔ value.member? key = some (.string text) := by
  rw [targetText]
  split
  next found equal => simp [equal]
  next absent => exact ⟨by simp [reject], fun found => absurd found (absent text)⟩

theorem readTarget_eq_ok {value : Json.Value} {target : Target} :
    readTarget value = .ok target ↔
      value.member? "ecu" = some (.string target.ecu) ∧
        value.member? "nodeType" = some (.string target.nodeType) ∧
        value.member? "vmodel" = some (.string target.vmodel) := by
  simp only [readTarget, bind_eq_ok, targetText_eq_ok]
  constructor
  · rintro ⟨_, ecu, _, nodeType, _, vmodel, result⟩
    cases result
    exact ⟨ecu, nodeType, vmodel⟩
  · rintro ⟨ecu, nodeType, vmodel⟩
    exact ⟨_, ecu, _, nodeType, _, vmodel, rfl⟩

/-- The fields that scalars were read from. -/
structure Scalars.ReadFrom (bundle : Json.Value) (typeKey : String) (scalars : Scalars) :
    Prop where
  seq : (bundle.field "seq").getLongLong = .ok scalars.seq
  version : (bundle.field "version").getString = .ok scalars.version
  rollback : (bundle.field "rollback").getBool = .ok scalars.rollback
  bundleType : (bundle.field typeKey).getInt = .ok scalars.bundleType
  issuedAt : (bundle.field "issued_at").getLongLong = .ok scalars.issuedAt
  expiresAt : (bundle.field "expires_at").getLongLong = .ok scalars.expiresAt
  tenant : (bundle.field "manufacturer").getString = .ok scalars.tenant
  pubkeyId : (bundle.field "pubkey_id").getString = .ok scalars.pubkeyId
  signature : (bundle.field "signature").getString = .ok scalars.signature

theorem readScalars_eq_ok {bundle : Json.Value} {typeKey : String} {scalars : Scalars} :
    readScalars bundle typeKey = .ok scalars ↔ scalars.ReadFrom bundle typeKey := by
  simp only [readScalars, bind_eq_ok]
  constructor
  · rintro ⟨_, seq, _, version, _, rollback, _, bundleType, _, issuedAt, _, expiresAt, _, tenant,
      _, pubkeyId, _, signature, result⟩
    cases result
    exact ⟨seq, version, rollback, bundleType, issuedAt, expiresAt, tenant, pubkeyId, signature⟩
  · rintro ⟨seq, version, rollback, bundleType, issuedAt, expiresAt, tenant, pubkeyId, signature⟩
    exact ⟨_, seq, _, version, _, rollback, _, bundleType, _, issuedAt, _, expiresAt, _, tenant,
      _, pubkeyId, _, signature, rfl⟩

/-! The order of an application. -/

section Application

variable {σ draft bundle result : Type} {start : σ} {fault : Fault} {stored : σ → Int}
  {read : Checked draft} {authorize : Int → draft → Checked bundle}
  {conclude : bundle → Program σ Stop result}

/-- The stored number as an application sees it. -/
def seqRead (fault : Fault) (number : Int) : Int :=
  match fault with
  | .none => number
  | _ => maxSeqOf none

theorem seqRead_eq_or (fault : Fault) (number : Int) :
    seqRead fault number = number ∨ seqRead fault number = maxSeqOf none := by
  cases fault with
  | none => exact .inl rfl
  | fail progress => exact .inr rfl
  | crash progress => exact .inr rfl

theorem loadSeq_spec :
    Program.Triple (· = start) (loadSeq fault stored)
      (fun number store => number = seqRead fault (stored start) ∧ store = start)
      (fun _ _ => False) (· = start) := by
  refine Program.Triple.step ?_ ?_ ?_
  · rintro rfl store rfl
    exact ⟨rfl, rfl⟩
  · rintro progress rfl store rfl
    exact ⟨rfl, rfl⟩
  · rintro _ _ store rfl
    rfl

/-- A refused condition is the only way a check stops. -/
theorem require_triple {condition : Prop} [Decidable condition] {err : String} {before : σ → Prop}
    {raised : Stop → σ → Prop} {dead : σ → Prop}
    (refuses : ¬ condition → ∀ store, before store → raised (.rejected (utf8 err)) store) :
    Program.Triple before (Program.ofExcept (require condition err) : Program σ Stop _)
      (fun _ store => condition ∧ before store) raised dead := by
  by_cases holds : condition
  · rw [require_of holds]
    exact fun store given => ⟨holds, given⟩
  · rw [require, dif_neg holds]
    exact fun store given => refuses holds store given

/-- Up to acceptance nothing changes; what follows is the accepted bundle's conclusion. -/
theorem admitThen_triple {done : result → σ → Prop} {raised : Stop → σ → Prop}
    {dead : σ → Prop} (refused : ∀ stop, raised stop start) (died : dead start)
    (concludes : ∀ accepted,
      (read >>= authorize (seqRead fault (stored start))) = .ok accepted →
      Program.Triple (· = start) (conclude accepted) done raised dead) :
    Program.Triple (· = start) (admitThen read (loadSeq fault stored) authorize conclude)
      done raised dead := by
  refine Program.Triple.bind (fun draft store => read = .ok draft ∧ store = start)
    (Program.Triple.ofExcept ?_ ?_) fun draft => ?_
  · rintro draft passed store rfl
    exact ⟨passed, rfl⟩
  · rintro stop _ store rfl
    exact refused stop
  refine Program.Triple.pointwise fun store ⟨passed, same⟩ => ?_
  subst store
  refine Program.Triple.bind
    (fun number store => number = seqRead fault (stored start) ∧ store = start)
    (loadSeq_spec.weaken (fun _ given => given) (fun _ _ given => given)
      (fun _ _ impossible => impossible.elim) ?_) fun number => ?_
  · rintro store rfl
    exact died
  refine Program.Triple.pointwise fun store ⟨number, same⟩ => ?_
  subst number same
  refine Program.Triple.bind
    (fun accepted later =>
      (read >>= authorize (seqRead fault (stored store))) = .ok accepted ∧ later = store)
    (Program.Triple.ofExcept ?_ ?_) fun accepted => ?_
  · rintro accepted authorized later rfl
    exact ⟨bind_eq_ok.2 ⟨draft, passed, authorized⟩, rfl⟩
  · rintro stop _ later rfl
    exact refused stop
  refine Program.Triple.pointwise fun later ⟨authorized, same⟩ => ?_
  subst same
  exact concludes accepted authorized

theorem admitThen_run (readable : ∀ progress, fault ≠ .crash progress) {accepted : bundle}
    (authorized : (read >>= authorize (seqRead fault (stored start))) = .ok accepted) :
    (admitThen read (loadSeq fault stored) authorize conclude).run start =
      (conclude accepted).run start := by
  obtain ⟨draft, passed, authorized⟩ := bind_eq_ok.1 authorized
  have loaded : (loadSeq fault stored).run start =
      .returned (seqRead fault (stored start)) start := by
    cases fault with
    | none => rfl
    | fail progress => rfl
    | crash progress => exact absurd rfl (readable progress)
  simp only [admitThen, passed, Program.run_bind, Program.run_ofExcept_ok,
    Outcome.andThen_returned, loaded, authorized]

end Application

/-! Decimal texts. -/

theorem newline_notMem_toString (value : Int) : '\n' ∉ (toString value).toList := by
  have digits : ∀ number : Nat, '\n' ∉ (Nat.repr number).toList := by
    intro number member
    rw [Nat.toList_repr] at member
    exact absurd (Nat.isDigit_of_mem_toDigits (by decide) (by decide) member) (by decide)
  rw [Int.toString_eq_repr]
  cases value with
  | ofNat number => exact digits number
  | negSucc number =>
      have sign : Int.repr (.negSucc number) = "-" ++ Nat.repr (number + 1) := rfl
      rw [sign, String.toList_append, List.mem_append, not_or]
      exact ⟨by decide, digits (number + 1)⟩

theorem toString_injective {first second : Int} (same : toString first = toString second) :
    first = second := by
  rwa [Int.toString_eq_repr, Int.toString_eq_repr, Int.repr_inj] at same

private theorem utf8_digits {symbols : List Char}
    (digits : ∀ symbol ∈ symbols, symbol.isDigit = true) :
    symbols.flatMap String.utf8EncodeChar = symbols.map fun symbol => symbol.toNat.toUInt8 := by
  induction symbols with
  | nil => rfl
  | cons symbol rest ih =>
      have bounds := digit_bounds (digits symbol (by simp))
      have single : String.utf8EncodeChar symbol = [symbol.toNat.toUInt8] := by
        have small : symbol.val.toNat ≤ 0x7f := le_trans bounds.2 (by decide)
        simp only [String.utf8EncodeChar, small, if_true]
        rfl
      rw [List.flatMap_cons, single, ih fun other member => digits other (by simp [member])]
      rfl

private theorem digitsValue_map {symbols : List Char} (start : Nat)
    (digits : ∀ symbol ∈ symbols, symbol.isDigit = true) :
    (symbols.map fun symbol => symbol.toNat.toUInt8).foldl
        (fun value c => 10 * value + (c.toNat - 48)) start =
      Nat.ofDigitChars 10 symbols start := by
  induction symbols generalizing start with
  | nil => rfl
  | cons symbol rest ih =>
      have bounds := digit_bounds (digits symbol (by simp))
      have byte : symbol.toNat.toUInt8.toNat = symbol.toNat := by
        rw [UInt8.toNat_ofNat']
        omega
      rw [List.map_cons, List.foldl_cons, byte,
        ih _ fun other member => digits other (by simp [member])]
      rfl

/-- The decimal text of a number is digits that read back. -/
theorem decimal_bytes (number : Nat) :
    ∃ first rest, utf8 (toString number) = first :: rest ∧
      (∀ byte ∈ first :: rest, isDigit byte = true) ∧ digitsValue (first :: rest) = number := by
  have digits : ∀ symbol ∈ Nat.toDigits 10 number, symbol.isDigit = true := fun _ member =>
    Nat.isDigit_of_mem_toDigits (by decide) (by decide) member
  have text : utf8 (toString number) =
      (Nat.toDigits 10 number).map fun symbol => symbol.toNat.toUInt8 := by
    have repr : toString number = Nat.repr number := rfl
    rw [repr, utf8, Nat.toList_repr, utf8_digits digits]
  have value := digitsValue_map 0 digits
  rw [Nat.ofDigitChars_ten_toDigits, ← text] at value
  cases written : utf8 (toString number) with
  | nil => exact absurd (List.map_eq_nil_iff.mp (text.symm.trans written)) Nat.toDigits_ne_nil
  | cons first rest =>
      refine ⟨first, rest, rfl, ?_, ?_⟩
      · intro byte member
        rw [← written, text] at member
        obtain ⟨symbol, listed, rfl⟩ := List.mem_map.mp member
        have bounds := digit_bounds (digits symbol listed)
        have byte : symbol.toNat.toUInt8.toNat = symbol.toNat := by
          rw [UInt8.toNat_ofNat']
          omega
        simp only [isDigit, Bool.and_eq_true, decide_eq_true_eq, UInt8.le_iff_toNat_le, byte]
        exact bounds
      · rw [written] at value
        exact value

theorem isDigit_bounds {byte : UInt8} (digit : isDigit byte = true) :
    48 ≤ byte.toNat ∧ byte.toNat ≤ 57 := by
  simp only [isDigit, Bool.and_eq_true, decide_eq_true_eq, UInt8.le_iff_toNat_le] at digit
  exact digit

theorem isSpace_digit {byte : UInt8} (digit : isDigit byte = true) : isSpace byte = false := by
  have bounds := isDigit_bounds digit
  simp only [isSpace, Bool.or_eq_false_iff, Bool.and_eq_false_iff, beq_eq_false_iff_ne, ne_eq,
    decide_eq_false_iff_not, ← UInt8.toNat_inj, UInt8.le_iff_toNat_le]
  exact ⟨by simp; omega, by simp; omega⟩

theorem unsigned_digit {byte : UInt8} (digit : isDigit byte = true) : byte ≠ 45 ∧ byte ≠ 43 := by
  have bounds := isDigit_bounds digit
  constructor
  · rintro rfl
    simp at bounds
  · rintro rfl
    simp at bounds

/-- A stored sequence number reads back. -/
theorem maxSeqOf_seqText {seq : Int} (positive : 0 < seq) (small : seq < 2 ^ 63) :
    maxSeqOf (some (seqText seq)) = seq := by
  obtain ⟨number, rfl⟩ : ∃ number : Nat, seq = number := ⟨seq.toNat, by omega⟩
  obtain ⟨first, rest, written, digits, total⟩ := decimal_bytes number
  have text : seqText number = (first :: rest) ++ [10] := by
    have newline : utf8 "\n" = [10] := by decide
    have repr : toString (number : Int) = toString number := rfl
    rw [seqText, utf8_append, newline, repr, written]
  have digit := digits first List.mem_cons_self
  have taken : ((first :: rest) ++ [10]).takeWhile isDigit = first :: rest := by
    rw [List.takeWhile_append_of_pos digits]
    simp [isDigit]
  have whole : ((first :: rest) ++ [10]).dropWhile isSpace = (first :: rest) ++ [10] := by
    rw [List.cons_append, List.dropWhile_cons_of_neg (by simp [isSpace_digit digit])]
  have minus : (((first :: rest) ++ [10]).head? == some (45 : UInt8)) = false := by
    simp [(unsigned_digit digit).1]
  have plus : (((first :: rest) ++ [10]).head? == some (43 : UInt8)) = false := by
    simp [(unsigned_digit digit).2]
  simp only [maxSeqOf, text, Option.bind_some, extractLongLong, whole, minus, plus, Bool.or_false,
    Bool.false_eq_true, if_false, taken, total]
  rw [if_pos ⟨by simp, by omega, small⟩, Option.getD_some]

/-! The separators. -/

def markOf (word : String) (unmarked : '\n' ∉ word.toList) : Separator '\n' :=
  ⟨word.toList, unmarked⟩

theorem markOf_text (word : String) (unmarked : '\n' ∉ word.toList) :
    (markOf word unmarked).text = '\n' :: word.toList := rfl

def tenantMark : Separator '\n' := markOf "tenant=" (by decide)
def versionMark : Separator '\n' := markOf "version=" (by decide)
def rollbackMark : Separator '\n' := markOf "rollback=" (by decide)
def ecuMark : Separator '\n' := markOf "target_ecu=" (by decide)
def nodeMark : Separator '\n' := markOf "target_node=" (by decide)
def vmodelMark : Separator '\n' := markOf "target_vmodel=" (by decide)
def issuedMark : Separator '\n' := markOf "issued_at=" (by decide)
def expiresMark : Separator '\n' := markOf "expires_at=" (by decide)

/-- The free-form fields with their separators. -/
def middleText (tenant version : String) (rollback : Bool) (target : Target) : List Char :=
  tenant.toList ++ versionMark.text ++ version.toList ++ rollbackMark.text ++
    [if rollback then '1' else '0'] ++ ecuMark.text ++ target.ecu.toList ++ nodeMark.text ++
    target.nodeType.toList ++ vmodelMark.text ++ target.vmodel.toList

theorem toList_foldl_lines (lines : List String) (start : String) :
    (lines.foldl (fun out line => out ++ line ++ "\n") start).toList =
      start.toList ++ terminated '\n' (lines.map String.toList) := by
  induction lines generalizing start with
  | nil => simp
  | cons line lines ih => simp [ih, String.toList_append]

theorem toList_canonicalBytes (typeKey : String) (typeMark : Separator '\n')
    (named : typeMark.text = '\n' :: (typeKey.toList ++ ['='])) (seq : Int) (tenant version : String)
    (rollback : Bool) (target : Target) (issuedAt expiresAt bundleType : Int)
    (lines : List String) :
    (canonicalBytes typeKey seq tenant version rollback target.ecu target.nodeType target.vmodel
        issuedAt expiresAt bundleType lines).toList =
      "seq=".toList ++ (toString seq).toList ++ tenantMark.text ++
        (middleText tenant version rollback target ++ issuedMark.text ++
          (toString issuedAt).toList ++ expiresMark.text ++ (toString expiresAt).toList ++
          typeMark.text ++
          terminated '\n' ((toString bundleType).toList :: lines.map String.toList)) := by
  have newline : "\n".toList = ['\n'] := by decide
  have equals : "=".toList = ['='] := by decide
  have flag : (if rollback then "1" else "0").toList = [if rollback then '1' else '0'] := by
    cases rollback <;> decide
  rw [canonicalBytes, toList_foldl_lines]
  simp only [middleText, markOf_text, named, tenantMark, versionMark, rollbackMark, ecuMark,
    nodeMark, vmodelMark, issuedMark, expiresMark, String.toList_append, newline, equals, flag,
    terminated_cons, List.append_assoc, List.cons_append, List.nil_append]

theorem sortLines_perm (lines : List String) : (sortLines lines).Perm lines :=
  List.perm_insertionSort _ _

/-- Payload lines that a type line cannot be mistaken for: unbroken, and beginning
with another letter than the type key. -/
structure PayloadLines (initial : Char) (lines : List String) : Prop where
  unbroken : ∀ line ∈ lines, '\n' ∉ line.toList
  apart : ∀ line ∈ lines, line.toList.head? ≠ some initial

theorem head?_toString_ne {initial : Char} (letter : initial.isAlpha = true) (value : Int) :
    (toString value).toList.head? ≠ some initial := by
  intro first
  have digits : ∀ number : Nat, initial ∉ (Nat.repr number).toList := by
    intro number member
    rw [Nat.toList_repr] at member
    have digit := Nat.isDigit_of_mem_toDigits (by decide) (by decide) member
    simp only [Char.isAlpha, Char.isUpper, Char.isLower, Char.isDigit, Bool.or_eq_true,
      Bool.and_eq_true, decide_eq_true_eq] at letter digit
    rcases letter with ⟨below, _⟩ | ⟨below, _⟩
    · exact absurd (UInt32.le_trans below digit.2) (by decide)
    · exact absurd (UInt32.le_trans below digit.2) (by decide)
  rw [Int.toString_eq_repr] at first
  cases value with
  | ofNat number => exact digits number (List.mem_of_head? first)
  | negSucc number =>
      have sign : Int.repr (.negSucc number) = "-" ++ Nat.repr (number + 1) := rfl
      have minus : "-".toList = ['-'] := by decide
      rw [sign, String.toList_append, minus, List.cons_append, List.head?_cons,
        Option.some.injEq] at first
      subst first
      exact absurd letter (by decide)

theorem PayloadLines.unbrokenAll {initial : Char} {lines : List String}
    (payload : PayloadLines initial lines) (bundleType : Int) :
    ∀ line ∈ (toString bundleType).toList :: lines.map String.toList, '\n' ∉ line := by
  intro line member
  rcases List.mem_cons.mp member with rfl | listed
  · exact newline_notMem_toString bundleType
  · obtain ⟨text, kept, rfl⟩ := List.mem_map.mp listed
    exact payload.unbroken text kept

section Parts

variable {typeKey : String} {typeMark : Separator '\n'} {initial : Char} {keyRest : List Char}
  {seq seq' issuedAt issuedAt' expiresAt expiresAt' bundleType bundleType' : Int}
  {tenant tenant' version version' : String} {rollback rollback' : Bool} {target target' : Target}
  {lines lines' : List String}

private theorem typeMark_notIn_payload (begins : typeMark.text = '\n' :: initial :: keyRest)
    (letter : initial.isAlpha = true) (payload : PayloadLines initial lines)
    {before after : List Char} :
    terminated '\n' ((toString bundleType).toList :: lines.map String.toList) ≠
      before ++ typeMark.text ++ after := by
  intro same
  have distinct : initial ≠ '\n' := by
    rintro rfl
    exact absurd letter (by decide)
  rw [begins, List.append_assoc, List.cons_append, List.cons_append] at same
  obtain ⟨line, member, first⟩ :=
    head_of_mark_terminated (payload.unbrokenAll bundleType) distinct same
  rcases List.mem_cons.mp member with rfl | listed
  · exact head?_toString_ne letter bundleType first
  · obtain ⟨text, kept, rfl⟩ := List.mem_map.mp listed
    exact payload.apart text kept first

/-- The parts on which two bundles with one canonical text agree whatever their
free-form fields hold. -/
theorem canonicalBytes_parts (typeMark : Separator '\n') (initial : Char) (keyRest : List Char)
    (named : typeMark.text = '\n' :: (typeKey.toList ++ ['=']))
    (begins : typeMark.text = '\n' :: initial :: keyRest) (letter : initial.isAlpha = true)
    (payload : PayloadLines initial lines) (payload' : PayloadLines initial lines')
    (same : canonicalBytes typeKey seq tenant version rollback target.ecu target.nodeType
        target.vmodel issuedAt expiresAt bundleType lines =
      canonicalBytes typeKey seq' tenant' version' rollback' target'.ecu target'.nodeType
        target'.vmodel issuedAt' expiresAt' bundleType' lines') :
    (seq = seq' ∧ issuedAt = issuedAt' ∧ expiresAt = expiresAt' ∧ bundleType = bundleType' ∧
      lines = lines') ∧
    middleText tenant version rollback target =
      middleText tenant' version' rollback' target' := by
  have texts := congrArg String.toList same
  rw [toList_canonicalBytes typeKey typeMark named, toList_canonicalBytes typeKey typeMark named]
    at texts
  have seqClean : ∀ value : Int, '\n' ∉ "seq=".toList ++ (toString value).toList := by
    intro value
    rw [List.mem_append, not_or]
    exact ⟨by decide, newline_notMem_toString value⟩
  obtain ⟨seqs, body⟩ := tenantMark.first_unique (seqClean seq) (seqClean seq') texts
  rcases typeMark.cross typeMark body with ⟨fronts, tails⟩ | ⟨_, _, rest⟩ | ⟨_, _, rest⟩
  · obtain ⟨types, payloads⟩ := List.cons.inj <| terminated_injective
      (payload.unbrokenAll bundleType) (payload'.unbrokenAll bundleType')
      (List.append_cancel_left tails)
    obtain ⟨fronts, expiries⟩ := expiresMark.last_unique (newline_notMem_toString expiresAt)
      (newline_notMem_toString expiresAt') fronts
    obtain ⟨middles, issues⟩ := issuedMark.last_unique (newline_notMem_toString issuedAt)
      (newline_notMem_toString issuedAt') fronts
    have numbers : ∀ {first second : Int}, (toString first).toList = (toString second).toList →
        first = second := fun equal => toString_injective (String.toList_inj.mp equal)
    refine ⟨⟨numbers (List.append_cancel_left seqs), numbers issues, numbers expiries,
      numbers types, ?_⟩, middles⟩
    exact (List.map_injective_iff.mpr fun _ _ => String.toList_inj.mp) payloads
  · exact absurd rest (typeMark_notIn_payload begins letter payload)
  · exact absurd rest (typeMark_notIn_payload begins letter payload')

end Parts

/-! The free-form fields. -/

/-- What stands between a tenant and a target ECU. -/
def headText (version : String) (rollback : Bool) : List Char :=
  versionMark.text ++ version.toList ++ rollbackMark.text ++ [if rollback then '1' else '0'] ++
    ecuMark.text

/-- No free-form field carries a separator that a reader could take for the one
after it, and neither the tenant nor the ECU carries a whole head. -/
structure Unambiguous (tenant : String) (target : Target) : Prop where
  tenantHead : ∀ version rollback, validVersionName version = true →
    ¬ headText version rollback <:+: tenant.toList
  ecuHead : ∀ version rollback, validVersionName version = true →
    ¬ headText version rollback <:+: target.ecu.toList
  ecuNode : ¬ nodeMark.text <:+: target.ecu.toList
  nodeNode : ¬ nodeMark.text <:+: target.nodeType.toList
  nodeVmodel : ¬ vmodelMark.text <:+: target.nodeType.toList
  vmodelVmodel : ¬ vmodelMark.text <:+: target.vmodel.toList

theorem newline_notMem_version {version : String} (named : validVersionName version = true) :
    '\n' ∉ version.toList := by
  intro member
  simp only [validVersionName, Bool.and_eq_true, List.all_eq_true] at named
  exact absurd (named.2 '\n' member) (by decide)

theorem newline_notMem_flag (rollback : Bool) :
    '\n' ∉ [if rollback then '1' else '0'] := by
  cases rollback <;> decide

section Middle

variable {tenant tenant' version version' : String} {rollback rollback' : Bool}
  {target target' : Target}

theorem middleText_eq :
    middleText tenant version rollback target =
      tenant.toList ++ headText version rollback ++ target.ecu.toList ++ nodeMark.text ++
        target.nodeType.toList ++ vmodelMark.text ++ target.vmodel.toList := by
  simp only [middleText, headText, List.append_assoc]

/-- A node separator in the text up to the ECU lies in the tenant or in the ECU. -/
private theorem node_in_front (named : validVersionName version = true)
    {ecu left right : List Char}
    (same : tenant.toList ++ headText version rollback ++ ecu = left ++ nodeMark.text ++ right) :
    nodeMark.text <:+: ecu ∨ ∃ between, tenant.toList = left ++ nodeMark.text ++ between := by
  have pieces : tenant.toList ++ versionMark.text ++ version.toList ++ rollbackMark.text ++
      [if rollback then '1' else '0'] ++ ecuMark.text ++ ecu = left ++ nodeMark.text ++ right := by
    simpa only [headText, List.append_assoc] using same
  rcases ecuMark.cross_distinct nodeMark (by decide) (by decide) pieces with
    ⟨between, _, inside⟩ | ⟨between, before, _⟩
  · exact .inl ⟨between, right, inside.symm⟩
  · obtain ⟨between, before, _⟩ := rollbackMark.before_of_unmarked nodeMark (by decide) (by decide)
      (newline_notMem_flag rollback) before
    obtain ⟨between, before, _⟩ := versionMark.before_of_unmarked nodeMark (by decide) (by decide)
      (newline_notMem_version named) before
    exact .inr ⟨between, before⟩

private theorem no_early_node (clear : Unambiguous tenant target)
    (named : validVersionName version = true) (named' : validVersionName version' = true)
    {tenantText ecuText right : List Char} :
    tenant.toList ++ headText version rollback ++ target.ecu.toList ≠
      tenantText ++ headText version' rollback' ++ ecuText ++ nodeMark.text ++ right := by
  intro same
  rcases node_in_front named same with inside | ⟨between, inside⟩
  · exact clear.ecuNode inside
  · refine clear.tenantHead version' rollback' named'
      ⟨tenantText, ecuText ++ nodeMark.text ++ between, ?_⟩
    simp only [inside, List.append_assoc]

/-- An ECU separator after a head: what precedes it ends with that head's start. -/
private theorem head_before_ecu (named : validVersionName version = true)
    {front left between : List Char}
    (same : front ++ versionMark.text ++ version.toList ++ rollbackMark.text ++
      [if rollback then '1' else '0'] = left ++ ecuMark.text ++ between) :
    ∃ middle, front = left ++ ecuMark.text ++ middle ∧
      between = middle ++ versionMark.text ++ version.toList ++ rollbackMark.text ++
        [if rollback then '1' else '0'] := by
  obtain ⟨middle, before, rest⟩ := rollbackMark.before_of_unmarked ecuMark (by decide) (by decide)
    (newline_notMem_flag rollback) same
  obtain ⟨middle, before, rest'⟩ := versionMark.before_of_unmarked ecuMark (by decide) (by decide)
    (newline_notMem_version named) before
  exact ⟨middle, before, by rw [rest, rest']⟩

private theorem front_injective (clear : Unambiguous tenant target)
    (named : validVersionName version = true) (named' : validVersionName version' = true)
    (same : tenant.toList ++ headText version rollback ++ target.ecu.toList =
      tenant'.toList ++ headText version' rollback' ++ target'.ecu.toList) :
    tenant = tenant' ∧ version = version' ∧ rollback = rollback' ∧ target.ecu = target'.ecu := by
  have pieces : tenant.toList ++ versionMark.text ++ version.toList ++ rollbackMark.text ++
        [if rollback then '1' else '0'] ++ ecuMark.text ++ target.ecu.toList =
      tenant'.toList ++ versionMark.text ++ version'.toList ++ rollbackMark.text ++
        [if rollback' then '1' else '0'] ++ ecuMark.text ++ target'.ecu.toList := by
    simpa only [headText, List.append_assoc] using same
  rcases ecuMark.cross ecuMark pieces with
    ⟨fronts, ecus⟩ | ⟨between, front, ecu⟩ | ⟨between, front, ecu⟩
  · obtain ⟨fronts, flags⟩ := rollbackMark.last_unique (newline_notMem_flag rollback)
      (newline_notMem_flag rollback') fronts
    obtain ⟨tenants, versions⟩ := versionMark.last_unique (newline_notMem_version named)
      (newline_notMem_version named') fronts
    refine ⟨String.toList_inj.mp tenants, String.toList_inj.mp versions, ?_,
      String.toList_inj.mp (List.append_cancel_left ecus)⟩
    cases rollback <;> cases rollback' <;> simp_all
  · obtain ⟨middle, _, rest⟩ := head_before_ecu named' front
    refine absurd ?_ (clear.ecuHead version' rollback' named')
    refine ⟨middle, target'.ecu.toList, ?_⟩
    simp only [ecu, rest, headText, List.append_assoc]
  · obtain ⟨middle, before, _⟩ := head_before_ecu named front
    refine absurd ?_ (clear.tenantHead version' rollback' named')
    refine ⟨tenant'.toList, middle, ?_⟩
    simp only [before, headText, List.append_assoc]

theorem headText_length_pos (version : String) (rollback : Bool) :
    0 < (headText version rollback).length := by
  simp [headText, versionMark, markOf_text]

/-- Fields that are not unambiguous share their text with different ones. -/
theorem exists_other_middle (named : validVersionName version = true)
    (ambiguous : ¬ Unambiguous tenant target) :
    ∃ tenant' version' rollback' target', validVersionName version' = true ∧
      middleText tenant' version' rollback' target' = middleText tenant version rollback target ∧
      ¬ (tenant' = tenant ∧ target' = target) := by
  by_contra none
  have only : ∀ tenant' version' rollback' target', validVersionName version' = true →
      middleText tenant' version' rollback' target' = middleText tenant version rollback target →
      tenant' = tenant ∧ target' = target := by
    intro tenant' version' rollback' target' named' same
    by_contra different
    exact none ⟨tenant', version', rollback', target', named', same, different⟩
  have shorter : ∀ {first second : String}, first = second →
      first.toList.length = second.toList.length := fun equal => by rw [equal]
  obtain ⟨ecu, nodeType, vmodel⟩ := target
  refine ambiguous ⟨?_, ?_, ?_, ?_, ?_, ?_⟩
  · rintro version' rollback' named' ⟨before, after, split⟩
    have tenants := (only (String.ofList before) version' rollback'
      ⟨String.ofList (after ++ headText version rollback ++ ecu.toList), nodeType, vmodel⟩ named'
      (by simp [middleText_eq, ← split, List.append_assoc])).1
    have positive := headText_length_pos version' rollback'
    have lengths := shorter tenants
    rw [← split] at lengths
    simp only [String.toList_ofList, List.length_append] at lengths
    omega
  · rintro version' rollback' named' ⟨before, after, split⟩
    have tenants := (only (String.ofList (tenant.toList ++ headText version rollback ++ before))
      version' rollback' ⟨String.ofList after, nodeType, vmodel⟩ named'
      (by simp [middleText_eq, ← split, List.append_assoc])).1
    have positive := headText_length_pos version rollback
    have lengths := shorter tenants
    simp only [String.toList_ofList, List.length_append] at lengths
    omega
  · rintro ⟨before, after, split⟩
    have targets := (only tenant version rollback
      ⟨String.ofList before, String.ofList (after ++ nodeMark.text ++ nodeType.toList), vmodel⟩ named
      (by simp [middleText_eq, ← split, List.append_assoc])).2
    have lengths := shorter (congrArg Target.ecu targets)
    rw [← split] at lengths
    simp [nodeMark, markOf_text] at lengths
  · rintro ⟨before, after, split⟩
    have targets := (only tenant version rollback
      ⟨String.ofList (ecu.toList ++ nodeMark.text ++ before), String.ofList after, vmodel⟩ named
      (by simp [middleText_eq, ← split, List.append_assoc])).2
    have lengths := shorter (congrArg Target.ecu targets)
    simp [nodeMark, markOf_text] at lengths
  · rintro ⟨before, after, split⟩
    have targets := (only tenant version rollback
      ⟨ecu, String.ofList before, String.ofList (after ++ vmodelMark.text ++ vmodel.toList)⟩ named
      (by simp [middleText_eq, ← split, List.append_assoc])).2
    have lengths := shorter (congrArg Target.nodeType targets)
    rw [← split] at lengths
    simp [vmodelMark, markOf_text] at lengths
  · rintro ⟨before, after, split⟩
    have targets := (only tenant version rollback
      ⟨ecu, String.ofList (nodeType.toList ++ vmodelMark.text ++ before), String.ofList after⟩ named
      (by simp [middleText_eq, ← split, List.append_assoc])).2
    have lengths := shorter (congrArg Target.nodeType targets)
    simp [vmodelMark, markOf_text] at lengths

/-- Unambiguous fields are determined by the text they make up. -/
theorem middleText_injective (clear : Unambiguous tenant target)
    (named : validVersionName version = true) (named' : validVersionName version' = true)
    (same : middleText tenant version rollback target =
      middleText tenant' version' rollback' target') :
    tenant = tenant' ∧ version = version' ∧ rollback = rollback' ∧ target = target' := by
  rw [middleText_eq, middleText_eq] at same
  rcases vmodelMark.cross vmodelMark same with
    ⟨fronts, vmodels⟩ | ⟨between, _, vmodel⟩ | ⟨between, front, _⟩
  · rcases nodeMark.cross nodeMark fronts with
      ⟨heads, nodes⟩ | ⟨between, _, node⟩ | ⟨between, front, _⟩
    · obtain ⟨tenants, versions, rollbacks, ecus⟩ := front_injective clear named named' heads
      refine ⟨tenants, versions, rollbacks, ?_⟩
      obtain ⟨ecu, nodeType, vmodel⟩ := target
      obtain ⟨ecu', nodeType', vmodel'⟩ := target'
      simp only [Target.mk.injEq]
      exact ⟨ecus, String.toList_inj.mp (List.append_cancel_left nodes),
        String.toList_inj.mp (List.append_cancel_left vmodels)⟩
    · exact absurd ⟨between, _, node.symm⟩ clear.nodeNode
    · exact absurd front (no_early_node clear named named')
  · exact absurd ⟨between, _, vmodel.symm⟩ clear.vmodelVmodel
  · rcases nodeMark.cross_distinct vmodelMark (by decide) (by decide) front with
      ⟨between', _, node⟩ | ⟨between', before, _⟩
    · exact absurd ⟨between', _, node.symm⟩ clear.nodeVmodel
    · have early : tenant.toList ++ headText version rollback ++ target.ecu.toList =
          tenant'.toList ++ headText version' rollback' ++ target'.ecu.toList ++ nodeMark.text ++
            (target'.nodeType.toList ++ vmodelMark.text ++ between') := by
        simpa only [List.append_assoc] using before
      exact absurd early (no_early_node clear named named')

end Middle

/-! The sample device. -/

/-- A library that reads one key and takes every signature for valid. -/
def acceptingCrypto : Crypto where
  Key := Unit
  readPublicKey _ := some ()
  digestVerify _ _ _ := true
  rawPublicKey _ := some (List.replicate 32 0)
  sha256 _ := List.replicate 32 0

def deviceSample : DeviceIdentity := ⟨"0x01", "t99", ["NIDPS"]⟩

end Idsm.Managerd
