import Idsm.Foundation.Execution
import Idsm.EveBridge.Eve
import Idsm.Json.Places

/-! The fields of an alert line against the lookups of a JSON reader. The search for a name is
right where the name's first occurrence is the member that the lookup finds. -/

set_option autoImplicit false

namespace Idsm.EveBridge

open Idsm.Json

/-! What the line says. -/

def textAt (key : String) (members : List (String × Value)) : Option String :=
  match lookup key members with
  | some (.string text) => some text
  | _ => none

def numberAt (key : String) (members : List (String × Value)) : Option Nat :=
  match lookup key members with
  | some (.unsigned number) => some number.toNat
  | _ => none

/-- The members of the top-level object `alert`. -/
def alertMembers (members : List (String × Value)) : List (String × Value) :=
  ((lookup "alert" members).map Value.membersIn).getD []

structure IsAlert (members : List (String × Value)) : Prop where
  eventType : textAt "event_type" members = some "alert"
  source : ∃ address, textAt "src_ip" members = some address
  destination : ∃ address, textAt "dest_ip" members = some address
  signatureId : ∃ id < 2 ^ 32, numberAt "signature_id" (alertMembers members) = some id

structure Carries (a : EveAlert) (members : List (String × Value)) : Prop where
  srcIp : textAt "src_ip" members = some (String.ofList a.srcIp)
  destIp : textAt "dest_ip" members = some (String.ofList a.destIp)
  srcPort : a.srcPort.toNat = (numberAt "src_port" members).getD 0
  destPort : a.destPort.toNat = (numberAt "dest_port" members).getD 0
  proto : String.ofList a.proto = (textAt "proto" members).getD ""
  signature : String.ofList a.signature = (textAt "signature" (alertMembers members)).getD ""
  signatureId : numberAt "signature_id" (alertMembers members) = some a.signatureId.toNat
  severity : a.severity.toNat = (numberAt "severity" (alertMembers members)).getD 0

def Extracts (line : String) (members : List (String × Value)) : Prop :=
  ((parseEveAlert line).valid = true ↔ IsAlert members) ∧
    ((parseEveAlert line).valid = true → Carries (parseEveAlert line) members)

/-! Where the search finds it. -/

/-- No escape of the text is `\b`, `\f` or `\u`. -/
def simpleEscapes (escaped : Bool) : List Char → Bool
  | [] => true
  | c :: rest =>
      if escaped then c ≠ 'b' && c ≠ 'f' && c ≠ 'u' && simpleEscapes false rest
      else if c = '"' then true
      else simpleEscapes (c == '\\') rest

/-- The name's first occurrence is the member a lookup finds, if there is one. -/
abbrev EndsAtMember (text : List Char) (places : List Place) (key : String) : Prop :=
  strstr (needle key) text = (lastPlace key places).map Place.nameText

structure TextReadable (text : List Char) (places : List Place) (key : String) : Prop where
  ends : EndsAtMember text places key
  simple : ∀ place ∈ lastPlace key places, place.value.isString = true →
    simpleEscapes false (skipWhitespace place.valueText).tail = true

structure NumberReadable (bound : Nat) (text : List Char) (places : List Place) (key : String) :
    Prop where
  ends : EndsAtMember text places key
  whole : ∀ place ∈ lastPlace key places, place.value.isFloat = false
  bounded : ∀ number ∈ numberAt key (places.map Place.member), number < bound

section Lines

variable (strtod : List Char → Option Binary64)

def linePlaces (line : String) : List Place :=
  objectPlaces strtod (2 * line.length + 2) (skipBom line.toList)

def alertPlaces (line : String) : List Place :=
  match lastPlace "alert" (linePlaces strtod line) with
  | some place => objectPlaces strtod place.fuel place.valueText
  | none => []

/-- The text that is searched for the members of `alert`. -/
def alertText (line : String) : List Char :=
  (findSection line.toList (some "alert")).getD []

/-- The searches end where they should, each as far as the line is read at all. -/
structure Searchable (line : String) (members : List (String × Value)) : Prop where
  eventType : TextReadable line.toList (linePlaces strtod line) "event_type"
  source : textAt "event_type" members = some "alert" →
    TextReadable line.toList (linePlaces strtod line) "src_ip"
  destination : textAt "event_type" members = some "alert" →
    (textAt "src_ip" members).isSome = true →
    TextReadable line.toList (linePlaces strtod line) "dest_ip"
  signatureId : textAt "event_type" members = some "alert" →
    (textAt "src_ip" members).isSome = true → (textAt "dest_ip" members).isSome = true →
    NumberReadable (2 ^ 32) (alertText line) (alertPlaces strtod line) "signature_id"
  details : IsAlert members →
    NumberReadable (2 ^ 16) line.toList (linePlaces strtod line) "src_port" ∧
    NumberReadable (2 ^ 16) line.toList (linePlaces strtod line) "dest_port" ∧
    TextReadable line.toList (linePlaces strtod line) "proto" ∧
    TextReadable (alertText line) (alertPlaces strtod line) "signature" ∧
    NumberReadable (2 ^ 8) (alertText line) (alertPlaces strtod line) "severity"

end Lines

/-- The reader of lines hands over none of these characters, and no JSON text has the last. -/
abbrev OneLine (text : List Char) : Prop := ∀ c ∈ text, c ≠ '\n' ∧ c ≠ '\r' ∧ c ≠ '\x00'

theorem OneLine.suffix {text rest : List Char} (one : OneLine text) (suffix : rest <:+ text) :
    OneLine rest :=
  fun c member => one c (suffix.subset member)

theorem cStr_eq {line : String} (one : OneLine line.toList) : cStr line = line.toList :=
  List.takeWhile_eq_self_iff.mpr fun c member => by simpa using (one c member).2.2

/-! The search. -/

theorem strstr_eq_some {needle text found : List Char} (hit : strstr needle text = some found) :
    needle <+: found ∧ found <:+ text := by
  induction text with
  | nil =>
      rw [strstr] at hit
      split at hit
      next empty =>
        cases hit
        rw [empty]
        exact ⟨List.prefix_refl _, List.suffix_refl _⟩
      next => cases hit
  | cons c text ih =>
      rw [strstr] at hit
      split at hit
      next front =>
        cases hit
        exact ⟨List.isPrefixOf_iff_prefix.mp front, List.suffix_refl _⟩
      next => exact ⟨(ih hit).1, (ih hit).2.trans (List.suffix_cons c text)⟩

theorem findSection_suffix {text found : List Char} {section' : Option String}
    (hit : findSection text section' = some found) : found <:+ text := by
  cases section' with
  | none =>
      cases hit
      exact List.suffix_refl _
  | some name =>
      obtain ⟨behind, first, brace⟩ := Option.bind_eq_some_iff.mp hit
      refine List.IsSuffix.trans ?_ (strstr_eq_some first).2
      rw [strchr] at brace
      cases dropped : behind.dropWhile (· ≠ '\x7b') with
      | nil =>
          rw [dropped] at brace
          cases brace
      | cons c tail =>
          rw [dropped] at brace
          cases brace
          rw [← dropped]
          exact List.dropWhile_suffix _

/-- The letters of a name stand in the text as they are. -/
abbrev Lettered (name : List Char) : Prop := ∀ c ∈ name, c ≠ '"' ∧ c ≠ '\\' ∧ ¬ c.toNat < 0x20

theorem scanString_lettered {name : List Char} {fuel : Nat} (letters : Lettered name)
    (enough : name.length < fuel) (rest : List Char) :
    scanString fuel (name ++ '"' :: rest) = some (name, rest) := by
  induction name generalizing fuel with
  | nil =>
      cases fuel with
      | zero => cases enough
      | succ fuel => rfl
  | cons c name ih =>
      cases fuel with
      | zero => cases enough
      | succ fuel =>
          obtain ⟨notQuote, notSlash, plain⟩ := letters c (by simp)
          have later : Lettered name := fun d member => letters d (List.mem_cons_of_mem c member)
          rw [List.cons_append, scanString_plain fuel _ notQuote notSlash plain,
            ih later (Nat.lt_of_succ_lt_succ enough)]
          rfl

theorem dropGaps {text tail : List Char} {c : Char} (one : OneLine text)
    (start : skipWhitespace text = c :: tail) :
    text.dropWhile isGap = (c :: tail).dropWhile isGap := by
  induction text with
  | nil => cases start
  | cons d text ih =>
      by_cases blank : isWhitespace d = true
      · have gap : isGap d = true := by
          have line := one d (by simp)
          simp only [isWhitespace, Bool.or_eq_true, decide_eq_true_eq] at blank
          rcases blank with ((rfl | rfl) | rfl) | rfl
          · rfl
          · rfl
          · exact absurd rfl line.1
          · exact absurd rfl line.2.1
        rw [List.dropWhile_cons_of_pos gap]
        refine ih (one.suffix (List.suffix_cons d text)) ?_
        rwa [skipWhitespace, List.dropWhile_cons_of_pos blank] at start
      · rw [skipWhitespace_cons (by simpa using blank)] at start
        rw [start]

section Hits

variable {strtod : List Char → Option Binary64}

/-- No value begins with a colon or a blank. -/
theorem value_isGap {fuel : Nat} {text rest : List Char} {value : Value}
    (parsed : parseValue strtod fuel text = some (value, rest)) :
    ∃ c tail, skipWhitespace text = c :: tail ∧ isGap c = false := by
  obtain ⟨c, tail, start, kind⟩ := parseValue_eq_some parsed
  refine ⟨c, tail, start, ?_⟩
  have dark := skipWhitespace_head start
  have notColon : c ≠ ':' := by
    rintro rfl
    rcases kind with ⟨mark, _⟩ | ⟨mark, _⟩ | ⟨mark, _⟩ | ⟨word, _⟩ | ⟨token, scanned, _⟩
    · cases mark
    · cases mark
    · cases mark
    · rcases word with mark | mark | mark <;> cases mark
    · rcases scanNumber_head scanned with ⟨minus, _⟩ | ⟨digit, _⟩
      · cases minus
      · cases digit
  simp only [isWhitespace, Bool.or_eq_false_iff, decide_eq_false_iff_not] at dark
  simp [isGap, notColon, dark]

/-- Behind the name of a shown member, the search stops at its value. -/
theorem findKey_shown {text start : List Char} {key : String} {section' : Option String}
    {place : Place} (shown : place.Shown strtod) (one : OneLine text)
    (letters : Lettered key.toList) (sectioned : findSection text section' = some start)
    (hit : strstr (needle key) start = some place.nameText) :
    findKey text key section' = some (skipWhitespace place.valueText) := by
  obtain ⟨⟨behind, shape⟩, suffix⟩ := strstr_eq_some hit
  obtain ⟨rest, _, _, valued, _⟩ := shown.valued
  have line : OneLine place.nameText := (one.suffix (findSection_suffix sectioned)).suffix suffix
  have written : place.nameText = '"' :: (key.toList ++ '"' :: behind) := by
    rw [← shape]
    simp [needle]
  have after : OneLine behind := line.suffix ⟨needle key, shape⟩
  have named := shown.named
  rw [written, parseKey, skipWhitespace_cons (by decide)] at named
  have enough : key.toList.length < (key.toList ++ '"' :: behind).length + 1 := by
    rw [List.length_append]
    omega
  simp only [scanString_lettered letters enough, Option.bind_eq_bind, Option.bind_some] at named
  have colon : skipWhitespace behind = ':' :: place.valueText := by
    split at named
    next found =>
      rw [Option.some.injEq, Prod.mk.injEq] at named
      rw [found, named.2]
    next => cases named
  obtain ⟨c, tail, opened, dark⟩ := value_isGap valued
  have inside : OneLine place.valueText := by
    refine after.suffix (List.IsSuffix.trans (List.suffix_cons ':' _) ?_)
    rw [← colon]
    exact List.dropWhile_suffix _
  have stops : behind.dropWhile isGap = skipWhitespace place.valueText := by
    rw [dropGaps after colon, List.dropWhile_cons_of_pos (by decide), dropGaps inside opened,
      List.dropWhile_cons_of_neg (by simp [dark]), opened]
  have dropped : place.nameText.drop (needle key).length = behind := by
    rw [← shape, List.drop_left]
  simp only [findKey, sectioned, hit, Option.bind_eq_bind, Option.bind_some, dropped, stops]
  rfl

/-! What is read there. -/

private theorem simpleEscape_letter {symbol letter : Char}
    (named : simpleEscape symbol = some letter) (notB : symbol ≠ 'b') (notF : symbol ≠ 'f') :
    (if symbol = 'n' then '\n' else if symbol = 't' then '\t' else if symbol = 'r' then '\r'
      else symbol) = letter := by
  simp only [simpleEscape, if_neg notB, if_neg notF] at named
  split_ifs at named ⊢ <;> grind

theorem stringBody_scanned {fuel : Nat} {text string rest : List Char}
    (scanned : scanString fuel text = some (string, rest))
    (simple : simpleEscapes false text = true) : stringBody false text = (string, true) := by
  induction fuel generalizing text string with
  | zero => cases scanned
  | succ fuel ih =>
      cases text with
      | nil => cases scanned
      | cons c tail =>
          have slash : '\\' ≠ '"' := by decide
          by_cases closing : c = '"'
          · subst closing
            cases scanned
            rfl
          by_cases escape : c = '\\'
          · subst escape
            cases tail with
            | nil => cases scanned
            | cons symbol tail =>
                simp [simpleEscapes, slash] at simple
                obtain ⟨⟨⟨notB, notF⟩, notU⟩, simple⟩ := simple
                simp only [scanString, if_neg slash, if_true, if_neg notU, Option.bind_eq_bind,
                  Option.bind_eq_some_iff] at scanned
                obtain ⟨letter, named, ⟨later, behind⟩, scannedLater, same⟩ := scanned
                cases same
                have body := ih scannedLater simple
                have same := simpleEscape_letter named notB notF
                simp only [stringBody, if_neg slash, ne_eq, reduceCtorEq, not_false_eq_true, and_self,
                  if_true, body, same]
                rfl
          · have noEscape : (c == '\\') = false := beq_eq_false_iff_ne.mpr escape
            simp only [simpleEscapes, closing, noEscape, if_false] at simple
            by_cases control : c.toNat < 0x20
            · simp [scanString, closing, escape, control] at scanned
            rw [scanString_plain fuel tail closing escape control] at scanned
            obtain ⟨⟨later, behind⟩, scannedLater, same⟩ := Option.map_eq_some_iff.mp scanned
            cases same
            simp [stringBody, closing, escape, ih scannedLater simple]

theorem parseJsonString_shown {place : Place} (shown : place.Shown strtod)
    (simple : place.value.isString = true →
      simpleEscapes false (skipWhitespace place.valueText).tail = true) :
    parseJsonString (skipWhitespace place.valueText) [] =
      match place.value with
      | .string text => (text.toList, true)
      | _ => ([], false) := by
  obtain ⟨rest, _, _, valued, _⟩ := shown.valued
  obtain ⟨c, tail, start, kind⟩ := parseValue_eq_some valued
  have unquoted : c ≠ '"' → parseJsonString (c :: tail) [] = ([], false) := by
    intro other
    unfold parseJsonString
    split
    next same =>
      cases same
      exact absurd rfl other
    next => rfl
  rw [start] at simple ⊢
  rcases kind with ⟨rfl, object⟩ | ⟨rfl, array⟩ | ⟨rfl, text, scanned, same⟩ | ⟨word, constant⟩ |
    ⟨token, scanned, number⟩
  · rw [unquoted (by decide)]
    cases kind : place.value <;> simp_all [Value.isObject]
  · rw [unquoted (by decide)]
    cases kind : place.value <;> simp_all [Value.isArray]
  · rw [same] at simple ⊢
    simp only [String.toList_ofList]
    exact stringBody_scanned scanned (simple rfl)
  · rw [unquoted (by rcases word with rfl | rfl | rfl <;> decide)]
    rcases constant with same | ⟨_, same⟩ <;> rw [same]
  · have notQuote : c ≠ '"' := by
      rintro rfl
      rcases scanNumber_head scanned with ⟨minus, _⟩ | ⟨digit, _⟩
      · cases minus
      · cases digit
    have isNumber := NumberToken.isNumber_of_value number
    rw [unquoted notQuote]
    cases kind : place.value <;> simp_all [Value.isNumber]

private theorem scanFraction_none {text rest : List Char}
    (scanned : scanFraction text = some ([], rest)) : rest = text := by
  unfold scanFraction at scanned
  split at scanned
  · split at scanned <;> cases scanned
  · cases scanned
    rfl

private theorem scanExponent_none {text rest : List Char}
    (scanned : scanExponent text = some ([], rest)) : rest = text := by
  cases text with
  | nil =>
      cases scanned
      rfl
  | cons c tail =>
      simp only [scanExponent] at scanned
      split at scanned
      · split at scanned <;> cases scanned
      · cases scanned
        rfl

private theorem takeWhile_delimited {d : Char} {rest later : List Char}
    (dark : skipWhitespace rest = d :: later) (delimiter : d = ',' ∨ d = '\x7d') :
    rest.takeWhile Char.isDigit = [] := by
  cases rest with
  | nil => cases dark
  | cons c rest =>
      by_cases blank : isWhitespace c = true
      · refine List.takeWhile_cons_of_neg ?_
        simp only [isWhitespace, Bool.or_eq_true, decide_eq_true_eq] at blank
        rcases blank with ((rfl | rfl) | rfl) | rfl <;> decide
      · rw [skipWhitespace_cons (by simpa using blank)] at dark
        cases dark
        refine List.takeWhile_cons_of_neg ?_
        rcases delimiter with rfl | rfl <;> decide

private theorem unsigned_token {token : NumberToken} {number : UInt64}
    (valued : token.value strtod = some (.unsigned number)) :
    token.tail = [] ∧ token.negative = false ∧
      Nat.ofDigitChars 10 token.digits 0 = number.toNat := by
  simp only [NumberToken.value] at valued
  split at valued
  next unsigned =>
    cases valued
    exact ⟨unsigned.1, unsigned.2.1, (UInt64.toNat_ofNat_of_lt' unsigned.2.2).symm⟩
  split at valued
  · cases valued
  · obtain ⟨_, _, same⟩ := Option.map_eq_some_iff.mp valued
    cases same

private theorem integer_token {token : NumberToken} {number : Int64}
    (valued : token.value strtod = some (.integer number)) : token.negative = true := by
  simp only [NumberToken.value] at valued
  split at valued
  · cases valued
  split at valued
  next negative => exact negative.2.1
  · obtain ⟨_, _, same⟩ := Option.map_eq_some_iff.mp valued
    cases same

private theorem scanSign_unsigned {text : List Char} (unsigned : (scanSign text).1 = false) :
    (scanSign text).2 = text := by
  unfold scanSign at unsigned ⊢
  split
  next => cases unsigned
  next => rfl

/-- An unsigned number's digits are all that stand there. -/
theorem digits_of_unsigned {c d : Char} {tail rest later : List Char} {token : NumberToken}
    {number : UInt64} (scanned : scanNumber (c :: tail) = some (token, rest))
    (valued : token.value strtod = some (.unsigned number)) (dark : skipWhitespace rest = d :: later)
    (delimiter : d = ',' ∨ d = '\x7d') :
    (c :: tail).takeWhile Char.isDigit = token.digits ∧ token.digits ≠ [] := by
  obtain ⟨bare, unsigned, _⟩ := unsigned_token valued
  simp only [scanNumber, Option.bind_eq_bind, Option.bind_eq_some_iff, pure, Option.some.injEq,
    Prod.mk.injEq] at scanned
  obtain ⟨⟨digits, first⟩, integer, ⟨fraction, second⟩, fractioned, ⟨exponent, third⟩, raised,
    rfl, rfl⟩ := scanned
  obtain ⟨rfl, rfl⟩ := List.append_eq_nil_iff.mp bare
  cases scanExponent_none raised
  cases scanFraction_none fractioned
  rw [scanSign_unsigned unsigned] at integer
  unfold scanInteger at integer
  split at integer
  next same =>
    cases integer
    rw [same, List.takeWhile_cons_of_pos (by decide), takeWhile_delimited dark delimiter]
    exact ⟨rfl, by simp⟩
  next =>
    split at integer
    next => cases integer
    next some =>
      cases integer
      exact ⟨rfl, some⟩

theorem parseJsonU32_shown {place : Place} (shown : place.Shown strtod)
    (whole : place.value.isFloat = false) :
    parseJsonU32 (skipWhitespace place.valueText) =
      match place.value with
      | .unsigned number => some (UInt32.ofNat number.toNat)
      | _ => none := by
  obtain ⟨rest, d, later, valued, dark, delimiter⟩ := shown.valued
  obtain ⟨c, tail, start, kind⟩ := parseValue_eq_some valued
  have undigited : c.isDigit = false → parseJsonU32 (c :: tail) = none := by
    intro other
    simp [parseJsonU32, other]
  rw [start]
  rcases kind with ⟨rfl, object⟩ | ⟨rfl, array⟩ | ⟨rfl, text, scanned, same⟩ | ⟨word, constant⟩ |
    ⟨token, scanned, number⟩
  · rw [undigited (by decide)]
    cases kind : place.value <;> simp_all [Value.isObject]
  · rw [undigited (by decide)]
    cases kind : place.value <;> simp_all [Value.isArray]
  · rw [undigited (by decide), same]
  · rw [undigited (by rcases word with rfl | rfl | rfl <;> decide)]
    rcases constant with same | ⟨_, same⟩ <;> rw [same]
  · cases kind : place.value with
    | unsigned value =>
        rw [kind] at number
        obtain ⟨digits, some⟩ := digits_of_unsigned scanned number dark delimiter
        have reads := (unsigned_token number).2.2
        have small : min value.toNat (2 ^ 64 - 1) = value.toNat :=
          Nat.min_eq_left (Nat.le_sub_one_of_lt value.toNat_lt)
        simp only [parseJsonU32, digits, if_neg some, reads, small]
    | float value =>
        rw [kind] at whole
        cases whole
    | integer value =>
        rcases scanNumber_head scanned with ⟨rfl, _⟩ | ⟨digit, unsigned⟩
        · rw [undigited (by decide)]
        · rw [kind] at number
          rw [integer_token number] at unsigned
          cases unsigned
    | _ =>
        rw [kind] at number
        cases NumberToken.isNumber_of_value number

end Hits

/-! One field. -/

section Fields

variable {strtod : List Char → Option Binary64} {text : List Char} {key : String}
  {section' : Option String} {places : List Place}

/-- The search ends at the value of the member that counts. -/
theorem findKey_ends (one : OneLine text) (letters : Lettered key.toList)
    (shown : ∀ place ∈ places, place.Shown strtod)
    (ends : EndsAtMember ((findSection text section').getD []) places key) :
    findKey text key section' =
      (lastPlace key places).map fun place => skipWhitespace place.valueText := by
  cases sectioned : findSection text section' with
  | none =>
      rw [sectioned] at ends
      have nowhere : (lastPlace key places).map Place.nameText = none := ends.symm
      rw [Option.map_eq_none_iff.mp nowhere]
      simp [findKey, sectioned]
  | some start =>
      rw [sectioned] at ends
      cases last : lastPlace key places with
      | none =>
          have nowhere : strstr (needle key) start = none := by
            rw [EndsAtMember, last] at ends
            exact ends
          simp [findKey, sectioned, nowhere]
      | some place =>
          rw [EndsAtMember, last] at ends
          exact findKey_shown (shown place (mem_of_lastPlace last).1) one letters sectioned ends

theorem getString_readable (one : OneLine text) (letters : Lettered key.toList)
    (shown : ∀ place ∈ places, place.Shown strtod)
    (readable : TextReadable ((findSection text section').getD []) places key) :
    getString text key section' [] =
      match textAt key (places.map Place.member) with
      | some string => (string.toList, true)
      | none => ([], false) := by
  rw [getString, findKey_ends one letters shown readable.ends, textAt, lookup_member]
  cases last : lastPlace key places with
  | none => rfl
  | some place =>
      have read := parseJsonString_shown (shown place (mem_of_lastPlace last).1)
        (readable.simple place last)
      simp only [Option.map_some, read]
      cases place.value <;> rfl

theorem getU32_readable {bound : Nat} (one : OneLine text) (letters : Lettered key.toList)
    (shown : ∀ place ∈ places, place.Shown strtod)
    (readable : NumberReadable bound ((findSection text section').getD []) places key) :
    getU32 text key section' = (numberAt key (places.map Place.member)).map UInt32.ofNat := by
  rw [getU32, findKey_ends one letters shown readable.ends, numberAt, lookup_member]
  cases last : lastPlace key places with
  | none => rfl
  | some place =>
      have read := parseJsonU32_shown (shown place (mem_of_lastPlace last).1)
        (readable.whole place last)
      simp only [Option.map_some, Option.bind_some, read]
      cases place.value <;> rfl

end Fields

/-! The line. -/

section Lines

variable {strtod : List Char → Option Binary64} {line : String}
  {members : List (String × Value)}

theorem linePlaces_of_parse (parsed : Json.parse strtod line = some (.object members)) :
    (linePlaces strtod line).map Place.member = members ∧
      ∀ place ∈ linePlaces strtod line, place.Shown strtod := by
  rw [Json.parse, Option.bind_eq_bind, Option.bind_eq_some_iff] at parsed
  obtain ⟨⟨value, rest⟩, found, ended⟩ := parsed
  simp only at ended
  split at ended
  · cases ended
    exact objectPlaces_of_parse found
  · cases ended

theorem alertPlaces_of_parse (parsed : Json.parse strtod line = some (.object members)) :
    (alertPlaces strtod line).map Place.member = alertMembers members ∧
      ∀ place ∈ alertPlaces strtod line, place.Shown strtod := by
  obtain ⟨whole, shown⟩ := linePlaces_of_parse parsed
  rw [alertPlaces, alertMembers, ← whole, lookup_member]
  cases last : lastPlace "alert" (linePlaces strtod line) with
  | none => exact ⟨rfl, fun place member => by cases member⟩
  | some place =>
      obtain ⟨rest, _, _, valued, _⟩ := (shown place (mem_of_lastPlace last).1).valued
      exact objectPlaces_of_parse valued

/-- The cast of a field's number, zero when there is none. -/
def narrowed {width : Type} [OfNat width 0] (cast : UInt32 → width) (found : Option Nat) : width :=
  ((found.map UInt32.ofNat).map cast).getD 0

private theorem toNat_port {found : Option Nat} (bounded : ∀ number, found = some number →
    number < 2 ^ 16) : (narrowed UInt32.toUInt16 found).toNat = found.getD 0 := by
  cases found with
  | none => rfl
  | some number =>
      have small := bounded number rfl
      have kept : (UInt32.ofNat number).toNat = number := UInt32.toNat_ofNat_of_lt' (Nat.lt_trans small (by decide))
      simp only [narrowed, Option.map_some, Option.getD_some, UInt32.toNat_toUInt16, kept]
      exact Nat.mod_eq_of_lt small

private theorem toNat_severity {found : Option Nat} (bounded : ∀ number, found = some number →
    number < 2 ^ 8) : (narrowed UInt32.toUInt8 found).toNat = found.getD 0 := by
  cases found with
  | none => rfl
  | some number =>
      have small := bounded number rfl
      have kept : (UInt32.ofNat number).toNat = number := UInt32.toNat_ofNat_of_lt' (Nat.lt_trans small (by decide))
      simp only [narrowed, Option.map_some, Option.getD_some, UInt32.toNat_toUInt8, kept]
      exact Nat.mod_eq_of_lt small

private theorem ofList_text (found : Option String) :
    String.ofList ((found.map String.toList).getD []) = found.getD "" := by
  cases found with
  | none => rfl
  | some text => exact String.ofList_toList

private theorem extracts_of_refused (refused : (parseEveAlert line).valid = false)
    (other : ¬ IsAlert members) : Extracts line members := by
  rw [Extracts, refused]
  constructor
  · exact ⟨fun valid => (by cases valid), fun alert => absurd alert other⟩
  · intro valid
    cases valid

/-- Where the searches end at the members, the reader agrees with the lookups. -/
theorem fields_agree_of_searchable (parsed : Json.parse strtod line = some (.object members))
    (one : OneLine line.toList) (searchable : Searchable strtod line members) :
    Extracts line members := by
  obtain ⟨whole, shown⟩ := linePlaces_of_parse parsed
  obtain ⟨inner, shownInner⟩ := alertPlaces_of_parse parsed
  have event : getString line.toList "event_type" none [] = _ :=
    getString_readable one (by decide) shown searchable.eventType
  rw [whole] at event
  by_cases alert : textAt "event_type" members = some "alert"
  case neg =>
    refine extracts_of_refused ?_ fun isAlert => alert isAlert.eventType
    cases written : textAt "event_type" members with
    | none =>
        rw [written] at event
        simp [parseEveAlert, cStr_eq one, event, EveAlert.empty]
    | some string =>
        rw [written] at event alert
        have other : string.toList ≠ ['a', 'l', 'e', 'r', 't'] := fun same =>
          alert (congrArg some (String.toList_injective same))
        simp [parseEveAlert, cStr_eq one, event, other, EveAlert.empty]
  rw [alert] at event
  have sourced : getString line.toList "src_ip" none [] = _ :=
    getString_readable one (by decide) shown (searchable.source alert)
  rw [whole] at sourced
  cases source : textAt "src_ip" members with
  | none =>
      rw [source] at sourced
      refine extracts_of_refused ?_ fun isAlert => by simpa [source] using isAlert.source
      simp [parseEveAlert, cStr_eq one, event, sourced, EveAlert.empty]
  | some sourceText =>
  rw [source] at sourced
  have directed : getString line.toList "dest_ip" none [] = _ :=
    getString_readable one (by decide) shown (searchable.destination alert (by rw [source]; rfl))
  rw [whole] at directed
  cases destination : textAt "dest_ip" members with
  | none =>
      rw [destination] at directed
      refine extracts_of_refused ?_ fun isAlert => by simpa [destination] using isAlert.destination
      simp [parseEveAlert, cStr_eq one, event, sourced, directed, EveAlert.empty]
  | some destinationText =>
  rw [destination] at directed
  have numbered := searchable.signatureId alert (by rw [source]; rfl) (by rw [destination]; rfl)
  have identified : getU32 line.toList "signature_id" (some "alert") = _ :=
    getU32_readable one (by decide) shownInner numbered
  rw [inner] at identified
  cases signatureId : numberAt "signature_id" (alertMembers members) with
  | none =>
      rw [signatureId] at identified
      refine extracts_of_refused ?_ fun isAlert => by simpa [signatureId] using isAlert.signatureId
      simp [parseEveAlert, cStr_eq one, event, sourced, directed, identified, EveAlert.empty]
  | some id =>
  rw [signatureId] at identified
  have small : id < 2 ^ 32 := numbered.bounded id (by rw [inner]; exact signatureId)
  have isAlert : IsAlert members :=
    ⟨alert, ⟨_, source⟩, ⟨_, destination⟩, id, small, signatureId⟩
  obtain ⟨srcPort, destPort, proto, signature, severity⟩ := searchable.details isAlert
  have srcPorted : getU32 line.toList "src_port" none = _ :=
    getU32_readable one (by decide) shown srcPort
  have destPorted : getU32 line.toList "dest_port" none = _ :=
    getU32_readable one (by decide) shown destPort
  have named : getString line.toList "proto" none [] = _ :=
    getString_readable one (by decide) shown proto
  have signed : getString line.toList "signature" (some "alert") [] = _ :=
    getString_readable one (by decide) shownInner signature
  have weighed : getU32 line.toList "severity" (some "alert") = _ :=
    getU32_readable one (by decide) shownInner severity
  rw [whole] at srcPorted destPorted named
  rw [inner] at signed weighed
  have result : parseEveAlert line =
      { valid := true
        srcIp := sourceText.toList
        srcPort := narrowed UInt32.toUInt16 (numberAt "src_port" members)
        destIp := destinationText.toList
        destPort := narrowed UInt32.toUInt16 (numberAt "dest_port" members)
        proto := ((textAt "proto" members).map String.toList).getD []
        signatureId := UInt32.ofNat id
        severity := narrowed UInt32.toUInt8 (numberAt "severity" (alertMembers members))
        signature := ((textAt "signature" (alertMembers members)).map String.toList).getD [] } := by
    simp [parseEveAlert, cStr_eq one, event, sourced, directed, identified, srcPorted, destPorted,
      named, signed, weighed, EveAlert.empty]
    refine ⟨?_, ?_, ?_, ?_, ?_⟩
    · cases numberAt "src_port" members <;> rfl
    · cases numberAt "dest_port" members <;> rfl
    · cases textAt "proto" members <;> rfl
    · cases numberAt "severity" (alertMembers members) <;> rfl
    · cases textAt "signature" (alertMembers members) <;> rfl
  have srcBound := srcPort.bounded
  have destBound := destPort.bounded
  have severityBound := severity.bounded
  rw [whole] at srcBound destBound
  rw [inner] at severityBound
  rw [Extracts, result]
  refine ⟨⟨fun _ => isAlert, fun _ => rfl⟩, fun _ => ?_⟩
  constructor
  · rw [source, String.ofList_toList]
  · rw [destination, String.ofList_toList]
  · exact toNat_port srcBound
  · exact toNat_port destBound
  · exact ofList_text _
  · exact ofList_text _
  · rw [signatureId, UInt32.toNat_ofNat_of_lt' small]
  · exact toNat_severity severityBound

end Lines

/-! Two lines. In the second a nested object names `src_ip` first. -/

section Samples

private def plainText : List Char :=
  ['\x7b', '"', 'e', 'v', 'e', 'n', 't', '_', 't', 'y', 'p', 'e', '"', ':', '"', 'a', 'l', 'e', 'r',
    't', '"', ',', '"', 's', 'r', 'c', '_', 'i', 'p', '"', ':', '"', 'a', '"', ',', '"', 'd', 'e', 's',
    't', '_', 'i', 'p', '"', ':', '"', 'b', '"', ',', '"', 'a', 'l', 'e', 'r', 't', '"', ':', '\x7b',
    '"', 's', 'i', 'g', 'n', 'a', 't', 'u', 'r', 'e', '_', 'i', 'd', '"', ':', '7', '\x7d', '\x7d']

private def nestedText : List Char :=
  '\x7b' :: ['"', 'x', '"', ':', '\x7b', '"', 's', 'r', 'c', '_', 'i', 'p', '"', ':', '"', 'c', '"',
    '\x7d', ','] ++ plainText.tail

private def plainMembers : List (String × Value) :=
  [("event_type", .string "alert"), ("src_ip", .string "a"), ("dest_ip", .string "b"),
    ("alert", .object [("signature_id", .unsigned 7)])]

private def noFloat : List Char → Option Binary64 := fun _ => none

private theorem parse_ofList {text : List Char} {members : List (String × Value)}
    (found : parseValue noFloat (2 * text.length + 2) (skipBom text) = some (.object members, [])) :
    Json.parse noFloat (String.ofList text) = some (.object members) := by
  rw [Json.parse, String.length_ofList, String.toList_ofList, found]
  rfl

private theorem linePlaces_ofList (text : List Char) : linePlaces noFloat (String.ofList text) =
    objectPlaces noFloat (2 * text.length + 2) (skipBom text) := by
  rw [linePlaces, String.length_ofList, String.toList_ofList]

private theorem plain_parses :
    Json.parse noFloat (String.ofList plainText) = some (.object plainMembers) :=
  parse_ofList rfl

private theorem nested_parses : Json.parse noFloat (String.ofList nestedText) =
    some (.object (("x", .object [("src_ip", .string "c")]) :: plainMembers)) :=
  parse_ofList rfl

private theorem plain_searchable :
    Searchable noFloat (String.ofList plainText) plainMembers := by
  constructor
  · rw [linePlaces_ofList, String.toList_ofList]
    exact ⟨by decide, by decide⟩
  · intro _
    rw [linePlaces_ofList, String.toList_ofList]
    exact ⟨by decide, by decide⟩
  · intro _ _
    rw [linePlaces_ofList, String.toList_ofList]
    exact ⟨by decide, by decide⟩
  · intro _ _ _
    rw [alertText, alertPlaces, linePlaces_ofList, String.toList_ofList]
    exact ⟨by decide, by decide, by decide⟩
  · intro _
    rw [alertText, alertPlaces, linePlaces_ofList, String.toList_ofList]
    exact ⟨⟨by decide, by decide, by decide⟩, ⟨by decide, by decide, by decide⟩,
      ⟨by decide, by decide⟩, ⟨by decide, by decide⟩, ⟨by decide, by decide, by decide⟩⟩

theorem plain_fields_agree : Extracts (String.ofList plainText) plainMembers :=
  fields_agree_of_searchable plain_parses (by rw [String.toList_ofList]; decide) plain_searchable

theorem nested_field_first : ¬ ∀ (strtod : List Char → Option Binary64) (line : String)
    (members : List (String × Value)), Json.parse strtod line = some (.object members) →
    OneLine line.toList → Extracts line members := by
  intro all
  have result : parseEveAlert (String.ofList nestedText) =
      ⟨true, ['c'], 0, ['b'], 0, [], 7, 0, []⟩ := by
    rw [parseEveAlert, cStr, String.toList_ofList]
    rfl
  have claimed := all noFloat _ _ nested_parses (by rw [String.toList_ofList]; decide)
  rw [Extracts, result] at claimed
  have source := (claimed.2 rfl).srcIp
  have written : textAt "src_ip" (("x", .object [("src_ip", .string "c")]) :: plainMembers) =
      some "a" := rfl
  rw [written] at source
  exact absurd source (by decide)

end Samples

end Idsm.EveBridge
