import Idsm.Json.RawTextProperties

/-! Where in a text the members of an object stand. -/

set_option autoImplicit false

namespace Idsm.Json

/-- A member with its text from the name's quotation mark on, and the text behind its colon. -/
structure Place where
  key : String
  value : Value
  nameText : List Char
  valueText : List Char
  fuel : Nat

def Place.member (place : Place) : String × Value := (place.key, place.value)

section Places

variable (strtod : List Char → Option Binary64)

/-- The members `parseMembers` reads from this text. -/
def memberPlaces : Nat → List Char → List Place
  | 0, _ => []
  | fuel + 1, text =>
      match parseKey text with
      | none => []
      | some (key, valueText) =>
          match parseValue strtod fuel valueText with
          | none => []
          | some (value, rest) =>
              ⟨key, value, skipWhitespace text, valueText, fuel⟩ ::
                match skipWhitespace rest with
                | ',' :: rest => memberPlaces fuel rest
                | _ => []

/-- The members of the object `parseValue` reads from this text. -/
def objectPlaces : Nat → List Char → List Place
  | 0, _ => []
  | fuel + 1, text =>
      match skipWhitespace text with
      | '\x7b' :: rest => memberPlaces strtod fuel (skipWhitespace rest)
      | _ => []

/-- The member that counts among those of one name. -/
def lastPlace (key : String) (places : List Place) : Option Place :=
  places.reverse.find? (·.key = key)

variable {strtod}

/-- The place shows its name, its value and a delimiter behind it. -/
structure Place.Shown (strtod : List Char → Option Binary64) (place : Place) : Prop where
  named : parseKey place.nameText = some (place.key, place.valueText)
  valued : ∃ rest c tail, parseValue strtod place.fuel place.valueText = some (place.value, rest) ∧
    skipWhitespace rest = c :: tail ∧ (c = ',' ∨ c = '\x7d')

theorem lookup_member (key : String) (places : List Place) :
    lookup key (places.map Place.member) = (lastPlace key places).map Place.value := by
  induction places with
  | nil => rfl
  | cons place places ih =>
      rw [List.map_cons, Place.member, lookup_cons, ih, lastPlace, lastPlace, List.reverse_cons,
        List.find?_append]
      cases found : places.reverse.find? (·.key = key) with
      | some later => rfl
      | none => by_cases same : place.key = key <;> simp [same]

theorem mem_of_lastPlace {key : String} {places : List Place} {place : Place}
    (last : lastPlace key places = some place) : place ∈ places ∧ place.key = key := by
  have found := List.mem_of_find?_eq_some last
  have named := List.find?_some last
  exact ⟨List.mem_reverse.mp found, by simpa using named⟩

theorem skipWhitespace_idem (text : List Char) :
    skipWhitespace (skipWhitespace text) = skipWhitespace text :=
  List.dropWhile_idempotent _ _

theorem parseKey_skipWhitespace (text : List Char) :
    parseKey (skipWhitespace text) = parseKey text := by
  rw [parseKey, parseKey, skipWhitespace_idem]

/-- The places are the members, one by one. -/
theorem memberPlaces_of_parse {fuel : Nat} {text rest : List Char}
    {members : List (String × Value)}
    (parsed : parseMembers strtod fuel text = some (members, rest)) :
    (memberPlaces strtod fuel text).map Place.member = members ∧
      ∀ place ∈ memberPlaces strtod fuel text, place.Shown strtod := by
  induction fuel generalizing text members with
  | zero => cases parsed
  | succ fuel ih =>
      simp only [parseMembers, Option.bind_eq_bind, Option.bind_eq_some_iff] at parsed
      obtain ⟨⟨key, after⟩, named, ⟨item, behind⟩, found, parsed⟩ := parsed
      have shown : ∀ {c tail}, skipWhitespace behind = c :: tail → c = ',' ∨ c = '\x7d' →
          Place.Shown strtod ⟨key, item, skipWhitespace text, after, fuel⟩ :=
        fun skipped delimiter => ⟨by rw [parseKey_skipWhitespace, named],
          behind, _, _, found, skipped, delimiter⟩
      simp only [memberPlaces, named, found]
      cases skipped : skipWhitespace behind with
      | nil =>
          simp only [skipped] at parsed
          cases parsed
      | cons c tail =>
          simp only [skipped] at parsed
          split at parsed
          next comma =>
            subst comma
            obtain ⟨⟨later, last⟩, foundLater, parsed⟩ := Option.map_eq_some_iff.mp parsed
            cases parsed
            have others := ih foundLater
            refine ⟨?_, ?_⟩
            · rw [List.map_cons, Place.member]
              exact congrArg ((key, item) :: ·) others.1
            intro place member
            cases member with
            | head => exact shown skipped (.inl rfl)
            | tail _ member => exact others.2 place member
          split at parsed
          next brace =>
            subst brace
            cases parsed
            refine ⟨rfl, ?_⟩
            intro place member
            cases member with
            | head => exact shown skipped (.inr rfl)
            | tail _ member => cases member
          next => cases parsed

theorem skipWhitespace_head {text rest : List Char} {c : Char}
    (start : skipWhitespace text = c :: rest) : isWhitespace c = false := by
  have here := List.head?_dropWhile_not isWhitespace text
  rw [show text.dropWhile isWhitespace = c :: rest from start] at here
  simpa using here

/-- A text, a word or a number. -/
theorem parseScalar_eq_some {c : Char} {tail rest : List Char} {value : Value}
    (parsed : parseScalar strtod c tail = some (value, rest)) :
    (c = '"' ∧ ∃ text, scanString (tail.length + 1) tail = some (text, rest) ∧
        value = .string (String.ofList text)) ∨
      ((c = 't' ∨ c = 'f' ∨ c = 'n') ∧ (value = .null ∨ ∃ truth, value = .boolean truth)) ∨
      ∃ token, scanNumber (c :: tail) = some (token, rest) ∧ token.value strtod = some value := by
  rw [parseScalar] at parsed
  split at parsed
  next mark =>
    rw [Option.bind_eq_bind, Option.bind_eq_some_iff] at parsed
    obtain ⟨⟨text, behind⟩, scanned, parsed⟩ := parsed
    cases parsed
    exact .inl ⟨mark, text, scanned, rfl⟩
  split at parsed
  next mark => exact .inr (.inl ⟨.inl mark, .inr ⟨true, (scanLiteral_suffix parsed).1⟩⟩)
  split at parsed
  next mark => exact .inr (.inl ⟨.inr (.inl mark), .inr ⟨false, (scanLiteral_suffix parsed).1⟩⟩)
  split at parsed
  next mark => exact .inr (.inl ⟨.inr (.inr mark), .inl (scanLiteral_suffix parsed).1⟩)
  next =>
    rw [Option.bind_eq_bind, Option.bind_eq_some_iff] at parsed
    obtain ⟨⟨token, behind⟩, scanned, parsed⟩ := parsed
    obtain ⟨found, valued, parsed⟩ := Option.bind_eq_some_iff.mp parsed
    cases parsed
    exact .inr (.inr ⟨token, scanned, valued⟩)

/-- What a value's first character says about it. -/
theorem parseValue_eq_some {fuel : Nat} {text rest : List Char} {value : Value}
    (parsed : parseValue strtod fuel text = some (value, rest)) :
    ∃ c tail, skipWhitespace text = c :: tail ∧
      ((c = '\x7b' ∧ value.isObject = true) ∨ (c = '[' ∧ value.isArray = true) ∨
        (c = '"' ∧ ∃ text, scanString (tail.length + 1) tail = some (text, rest) ∧
          value = .string (String.ofList text)) ∨
        ((c = 't' ∨ c = 'f' ∨ c = 'n') ∧ (value = .null ∨ ∃ truth, value = .boolean truth)) ∨
        ∃ token, scanNumber (c :: tail) = some (token, rest) ∧ token.value strtod = some value) := by
  cases fuel with
  | zero => cases parsed
  | succ fuel =>
      rw [parseValue] at parsed
      cases skipped : skipWhitespace text with
      | nil =>
          rw [skipped] at parsed
          cases parsed
      | cons c tail =>
          refine ⟨c, tail, rfl, ?_⟩
          simp only [skipped] at parsed
          split at parsed
          next brace =>
            refine .inl ⟨brace, ?_⟩
            split at parsed
            · cases parsed
              rfl
            · obtain ⟨_, _, parsed⟩ := Option.map_eq_some_iff.mp parsed
              cases parsed
              rfl
          split at parsed
          next bracket =>
            refine .inr (.inl ⟨bracket, ?_⟩)
            split at parsed
            · cases parsed
              rfl
            · obtain ⟨_, _, parsed⟩ := Option.map_eq_some_iff.mp parsed
              cases parsed
              rfl
          next => exact .inr (.inr (parseScalar_eq_some parsed))

theorem scanNumber_head {c : Char} {tail rest : List Char} {token : NumberToken}
    (scanned : scanNumber (c :: tail) = some (token, rest)) :
    (c = '-' ∧ token.negative = true) ∨ (c.isDigit = true ∧ token.negative = false) := by
  simp only [scanNumber, Option.bind_eq_bind, Option.bind_eq_some_iff, pure, Option.some.injEq,
    Prod.mk.injEq] at scanned
  obtain ⟨⟨digits, first⟩, integer, _, _, _, _, rfl, rfl⟩ := scanned
  by_cases minus : c = '-'
  · subst minus
    exact .inl ⟨rfl, rfl⟩
  · have unsigned : scanSign (c :: tail) = (false, c :: tail) := by
      unfold scanSign
      split
      next same =>
        cases same
        exact absurd rfl minus
      next => rfl
    rw [unsigned] at integer ⊢
    refine .inr ⟨?_, rfl⟩
    unfold scanInteger at integer
    split at integer
    next same =>
      cases same
      rfl
    next =>
      split at integer
      next => cases integer
      next some =>
        by_contra none
        exact some (List.takeWhile_cons_of_neg none)

/-- The members of an object, none of another value. -/
def Value.membersIn : Value → List (String × Value)
  | .object members => members
  | _ => []

def Value.isFloat : Value → Bool
  | .float _ => true
  | _ => false

private theorem memberPlaces_closed (fuel : Nat) {text : List Char}
    (closed : text.head? = some '\x7d') : memberPlaces strtod fuel text = [] := by
  cases text with
  | nil => cases closed
  | cons c tail =>
      cases closed
      have unnamed : parseKey ('\x7d' :: tail) = none := by
        rw [parseKey, skipWhitespace_cons (by decide)]
        rfl
      cases fuel with
      | zero => rfl
      | succ fuel => rw [memberPlaces, unnamed]

private theorem objectPlaces_other {c : Char} {tail text : List Char} (fuel : Nat)
    (start : skipWhitespace text = c :: tail) (other : c ≠ '\x7b') :
    objectPlaces strtod fuel text = [] := by
  cases fuel with
  | zero => rfl
  | succ fuel =>
      rw [objectPlaces, start]
      split
      next same =>
        cases same
        exact absurd rfl other
      next => rfl

private theorem objectPlaces_object {fuel : Nat} {text rest : List Char}
    {members : List (String × Value)}
    (parsed : parseValue strtod fuel text = some (.object members, rest)) :
    (objectPlaces strtod fuel text).map Place.member = members ∧
      ∀ place ∈ objectPlaces strtod fuel text, place.Shown strtod := by
  cases fuel with
  | zero => cases parsed
  | succ fuel =>
      obtain ⟨c, tail, start, kind⟩ := parseValue_eq_some parsed
      have brace : c = '\x7b' := by
        rcases kind with ⟨brace, _⟩ | ⟨_, array⟩ | ⟨_, _, _, same⟩ | ⟨_, same | ⟨_, same⟩⟩ | number
        · exact brace
        · cases array
        · cases same
        · cases same
        · cases same
        · obtain ⟨token, _, valued⟩ := number
          cases NumberToken.isNumber_of_value valued
      subst brace
      rw [parseValue] at parsed
      simp only [start, if_true] at parsed
      rw [objectPlaces, start]
      simp only
      split at parsed
      next closed =>
        cases parsed
        rw [memberPlaces_closed fuel closed]
        exact ⟨rfl, fun place member => by cases member⟩
      next =>
        obtain ⟨⟨members, behind⟩, found, parsed⟩ := Option.map_eq_some_iff.mp parsed
        cases parsed
        exact memberPlaces_of_parse found

/-- The places of a value's members, all of them shown. -/
theorem objectPlaces_of_parse {fuel : Nat} {text rest : List Char} {value : Value}
    (parsed : parseValue strtod fuel text = some (value, rest)) :
    (objectPlaces strtod fuel text).map Place.member = value.membersIn ∧
      ∀ place ∈ objectPlaces strtod fuel text, place.Shown strtod := by
  have other : ∀ {c tail}, skipWhitespace text = c :: tail → c ≠ '\x7b' → value.membersIn = [] →
      (objectPlaces strtod fuel text).map Place.member = value.membersIn ∧
        ∀ place ∈ objectPlaces strtod fuel text, place.Shown strtod := by
    intro c tail start different none
    rw [objectPlaces_other fuel start different, none]
    exact ⟨rfl, fun place member => by cases member⟩
  obtain ⟨c, tail, start, kind⟩ := parseValue_eq_some parsed
  rcases kind with ⟨_, object⟩ | ⟨rfl, array⟩ | ⟨rfl, _, _, rfl⟩ | ⟨word, constant⟩ | number
  · cases value with
    | object members => exact objectPlaces_object parsed
    | _ => cases object
  · refine other start (by decide) ?_
    cases value with
    | array items => rfl
    | _ => cases array
  · exact other start (by decide) rfl
  · refine other start ?_ ?_
    · rcases word with rfl | rfl | rfl <;> decide
    · rcases constant with rfl | ⟨_, rfl⟩ <;> rfl
  · obtain ⟨token, scanned, valued⟩ := number
    have isNumber := NumberToken.isNumber_of_value valued
    refine other start ?_ ?_
    · rintro rfl
      rcases scanNumber_head scanned with ⟨minus, _⟩ | ⟨digit, _⟩
      · cases minus
      · cases digit
    · cases value with
      | object members => cases isNumber
      | _ => rfl

end Places

end Idsm.Json
