import Idsm.Json.ParseProperties

/-! A text without white space and escapes shows its members: a parsed string member
stands in it letter by letter. -/

set_option autoImplicit false

namespace Idsm.Json

/-- A text that its literals show as they are. -/
def Raw (text : List Char) : Prop := ∀ c ∈ text, isWhitespace c = false ∧ c ≠ '\\'

theorem Raw.suffix {text rest : List Char} (raw : Raw text) (suffix : rest <:+ text) : Raw rest :=
  fun c member => raw c (suffix.subset member)

theorem Raw.skipWhitespace_eq {text : List Char} (raw : Raw text) : skipWhitespace text = text := by
  cases text with
  | nil => rfl
  | cons c rest => exact skipWhitespace_cons (raw c (by simp)).1 rest

theorem scanString_raw {fuel : Nat} {text literal rest : List Char} (raw : Raw text)
    (scanned : scanString fuel text = some (literal, rest)) : text = literal ++ '"' :: rest := by
  induction fuel generalizing text literal with
  | zero => cases scanned
  | succ fuel ih =>
      cases text with
      | nil => cases scanned
      | cons c tail =>
          by_cases closing : c = '"'
          · subst closing
            cases scanned
            rfl
          have notSlash : c ≠ '\\' := (raw c (by simp)).2
          by_cases control : c.toNat < 0x20
          · simp [scanString, closing, notSlash, control] at scanned
          rw [scanString_plain fuel tail closing notSlash control] at scanned
          cases later : scanString fuel tail with
          | none =>
              rw [later] at scanned
              cases scanned
          | some found =>
              rw [later] at scanned
              cases scanned
              rw [List.cons_append, ih (raw.suffix (List.suffix_cons c tail)) later]

theorem parseKey_raw {text rest : List Char} {key : String} (raw : Raw text)
    (parsed : parseKey text = some (key, rest)) :
    text = '"' :: (key.toList ++ '"' :: ':' :: rest) := by
  rw [parseKey, raw.skipWhitespace_eq] at parsed
  split at parsed
  next tail =>
    rw [Option.bind_eq_bind, Option.bind_eq_some_iff] at parsed
    obtain ⟨⟨literal, behind⟩, scanned, parsed⟩ := parsed
    have shape := scanString_raw (raw.suffix (List.suffix_cons _ tail)) scanned
    have kept : Raw behind := raw.suffix ⟨'"' :: (literal ++ ['"']), by simp [shape]⟩
    simp only [kept.skipWhitespace_eq] at parsed
    split at parsed
    next =>
      cases parsed
      rw [shape, String.toList_ofList]
    next => cases parsed
  next => cases parsed

theorem scanNumber_suffix {text rest : List Char} {token : NumberToken}
    (scanned : scanNumber text = some (token, rest)) : rest <:+ text := by
  have dropped : ∀ text : List Char, text.dropWhile Char.isDigit <:+ text := fun text =>
    List.dropWhile_suffix _
  have sign : (scanSign text).2 <:+ text := by
    unfold scanSign
    split
    · exact List.suffix_cons _ _
    · exact List.suffix_refl _
  have integer : ∀ {text rest digits}, scanInteger text = some (digits, rest) → rest <:+ text := by
    intro text rest digits found
    unfold scanInteger at found
    split at found
    · cases found
      exact List.suffix_cons _ _
    · split at found
      · cases found
      · cases found
        exact dropped _
  have fraction : ∀ {text rest digits}, scanFraction text = some (digits, rest) → rest <:+ text := by
    intro text rest digits found
    unfold scanFraction at found
    split at found
    · split at found
      · cases found
      · cases found
        exact (dropped _).trans (List.suffix_cons _ _)
    · cases found
      exact List.suffix_refl _
  have exponentSigned : ∀ text, (exponentSign text).2 <:+ text := by
    intro text
    unfold exponentSign
    split
    · exact List.suffix_cons _ _
    · exact List.suffix_cons _ _
    · exact List.suffix_refl _
  have exponent : ∀ {text rest digits}, scanExponent text = some (digits, rest) → rest <:+ text := by
    intro text rest digits found
    cases text with
    | nil =>
        cases found
        exact List.suffix_refl _
    | cons c tail =>
        simp only [scanExponent] at found
        split at found
        · split at found
          · cases found
          · cases found
            exact ((dropped _).trans (exponentSigned tail)).trans (List.suffix_cons _ tail)
        · cases found
          exact List.suffix_refl _
  simp only [scanNumber, Option.bind_eq_bind, Option.bind_eq_some_iff, pure, Option.some.injEq,
    Prod.mk.injEq] at scanned
  obtain ⟨⟨_, first⟩, integerScanned, ⟨_, second⟩, fractionScanned, ⟨_, third⟩, exponentScanned, _,
    rfl⟩ := scanned
  exact ((exponent exponentScanned).trans (fraction fractionScanned)).trans
    ((integer integerScanned).trans sign)

section Values

variable {strtod : List Char → Option Binary64}

theorem NumberToken.isNumber_of_value {token : NumberToken} {value : Value}
    (valued : token.value strtod = some value) : value.isNumber = true := by
  simp only [NumberToken.value] at valued
  split at valued
  · cases valued
    rfl
  split at valued
  · cases valued
    rfl
  · obtain ⟨double, _, rfl⟩ := Option.map_eq_some_iff.mp valued
    rfl

private theorem kinds_of_isNumber {value : Value} (number : value.isNumber = true) :
    value.isObject = false ∧ value.isString = false := by
  cases value <;> first | exact ⟨rfl, rfl⟩ | cases number

theorem scanLiteral_suffix {word : String} {value found : Value} {text rest : List Char}
    (scanned : scanLiteral word value text = some (found, rest)) : found = value ∧ rest <:+ text := by
  rw [scanLiteral] at scanned
  split at scanned
  · cases scanned
    exact ⟨rfl, List.drop_suffix _ _⟩
  · cases scanned

theorem parseScalar_suffix {c : Char} {tail rest : List Char} {value : Value}
    (raw : Raw (c :: tail)) (parsed : parseScalar strtod c tail = some (value, rest)) :
    rest <:+ c :: tail ∧ value.isObject = false ∧ (value.isString = true → c = '"') := by
  have literal : ∀ {word : String} {constant : Value}, constant.isObject = false →
      constant.isString = false → scanLiteral word constant (c :: tail) = some (value, rest) →
      rest <:+ c :: tail ∧ value.isObject = false ∧ (value.isString = true → c = '"') := by
    intro word constant plain other scanned
    obtain ⟨rfl, suffix⟩ := scanLiteral_suffix scanned
    exact ⟨suffix, plain, fun string => absurd string (by simp [other])⟩
  rw [parseScalar] at parsed
  split at parsed
  next isMark =>
    rw [Option.bind_eq_bind, Option.bind_eq_some_iff] at parsed
    obtain ⟨⟨string, behind⟩, scanned, parsed⟩ := parsed
    cases parsed
    have shape := scanString_raw (raw.suffix (List.suffix_cons c tail)) scanned
    exact ⟨⟨c :: (string ++ ['"']), by simp [shape]⟩, rfl, fun _ => isMark⟩
  split at parsed
  next => exact literal rfl rfl parsed
  split at parsed
  next => exact literal rfl rfl parsed
  split at parsed
  next => exact literal rfl rfl parsed
  next =>
    simp only [Option.bind_eq_bind, Option.bind_eq_some_iff, pure, Option.some.injEq,
      Prod.mk.injEq] at parsed
    obtain ⟨⟨token, behind⟩, scanned, found, valued, rfl, rfl⟩ := parsed
    have other := kinds_of_isNumber (NumberToken.isNumber_of_value valued)
    exact ⟨scanNumber_suffix scanned, other.1, fun string => absurd string (by simp [other.2])⟩

private theorem tail_suffix (text : List Char) : text.tail <:+ text := by
  cases text with
  | nil => exact List.suffix_refl _
  | cons c tail => exact List.suffix_cons c tail

theorem parseItems_eq_some {fuel : Nat} {text rest : List Char} {items : List Value}
    (parsed : parseItems strtod (fuel + 1) text = some (items, rest)) :
    ∃ item behind c tail, parseValue strtod fuel text = some (item, behind) ∧
      skipWhitespace behind = c :: tail ∧
      ((∃ later, parseItems strtod fuel tail = some (later, rest) ∧ items = item :: later) ∨
        tail = rest ∧ items = [item]) := by
  rw [parseItems, Option.bind_eq_bind, Option.bind_eq_some_iff] at parsed
  obtain ⟨⟨item, behind⟩, found, parsed⟩ := parsed
  cases skipped : skipWhitespace behind with
  | nil =>
      simp only [skipped] at parsed
      cases parsed
  | cons c tail =>
      refine ⟨item, behind, c, tail, found, skipped, ?_⟩
      simp only [skipped] at parsed
      split at parsed
      · obtain ⟨⟨later, last⟩, foundLater, parsed⟩ := Option.map_eq_some_iff.mp parsed
        cases parsed
        exact .inl ⟨later, foundLater, rfl⟩
      split at parsed
      · cases parsed
        exact .inr ⟨rfl, rfl⟩
      · cases parsed

theorem parseMembers_eq_some {fuel : Nat} {text rest : List Char}
    {members : List (String × Value)}
    (parsed : parseMembers strtod (fuel + 1) text = some (members, rest)) :
    ∃ key after item behind c tail, parseKey text = some (key, after) ∧
      parseValue strtod fuel after = some (item, behind) ∧ skipWhitespace behind = c :: tail ∧
      ((∃ later, parseMembers strtod fuel tail = some (later, rest) ∧
          members = (key, item) :: later) ∨
        tail = rest ∧ members = [(key, item)]) := by
  simp only [parseMembers, Option.bind_eq_bind, Option.bind_eq_some_iff] at parsed
  obtain ⟨⟨key, after⟩, named, ⟨item, behind⟩, found, parsed⟩ := parsed
  cases skipped : skipWhitespace behind with
  | nil =>
      simp only [skipped] at parsed
      cases parsed
  | cons c tail =>
      refine ⟨key, after, item, behind, c, tail, named, found, skipped, ?_⟩
      simp only [skipped] at parsed
      split at parsed
      · obtain ⟨⟨later, last⟩, foundLater, parsed⟩ := Option.map_eq_some_iff.mp parsed
        cases parsed
        exact .inl ⟨later, foundLater, rfl⟩
      split at parsed
      · cases parsed
        exact .inr ⟨rfl, rfl⟩
      · cases parsed

/-- What is left is the end of the text, and a string value begins with its mark. -/
private theorem parse_suffix (fuel : Nat) :
    (∀ {text rest : List Char} {value : Value}, Raw text →
      parseValue strtod fuel text = some (value, rest) →
      rest <:+ text ∧ (value.isString = true → text.head? = some '"')) ∧
    (∀ {text rest : List Char} {items : List Value}, Raw text →
      parseItems strtod fuel text = some (items, rest) → rest <:+ text) ∧
    (∀ {text rest : List Char} {members : List (String × Value)}, Raw text →
      parseMembers strtod fuel text = some (members, rest) → rest <:+ text) := by
  induction fuel with
  | zero =>
      refine ⟨fun _ parsed => ?_, fun _ parsed => ?_, fun _ parsed => ?_⟩
      · cases parsed
      · cases parsed
      · cases parsed
  | succ fuel ih =>
      obtain ⟨values, itemLists, memberLists⟩ := ih
      refine ⟨?_, ?_, ?_⟩
      · intro text rest value raw parsed
        cases text with
        | nil => cases parsed
        | cons c tail =>
            have within : Raw tail := raw.suffix (List.suffix_cons c tail)
            have beyond : ∀ {rest}, rest <:+ tail → rest <:+ c :: tail := fun suffix =>
              suffix.trans (List.suffix_cons c tail)
            rw [parseValue_cons (raw c (by simp)).1, within.skipWhitespace_eq] at parsed
            split at parsed
            · split at parsed
              · cases parsed
                exact ⟨beyond (tail_suffix tail), fun string => nomatch string⟩
              · obtain ⟨⟨members, behind⟩, found, parsed⟩ := Option.map_eq_some_iff.mp parsed
                cases parsed
                exact ⟨beyond (memberLists within found), fun string => nomatch string⟩
            split at parsed
            · split at parsed
              · cases parsed
                exact ⟨beyond (tail_suffix tail), fun string => nomatch string⟩
              · obtain ⟨⟨items, behind⟩, found, parsed⟩ := Option.map_eq_some_iff.mp parsed
                cases parsed
                exact ⟨beyond (itemLists within found), fun string => nomatch string⟩
            · obtain ⟨suffix, _, marked⟩ := parseScalar_suffix raw parsed
              exact ⟨suffix, fun string => by rw [List.head?_cons, marked string]⟩
      · intro text rest items raw parsed
        obtain ⟨item, behind, c, tail, found, skipped, ended⟩ := parseItems_eq_some parsed
        have suffix := (values raw found).1
        rw [(raw.suffix suffix).skipWhitespace_eq] at skipped
        have closed : tail <:+ text := (skipped ▸ List.suffix_cons c tail).trans suffix
        rcases ended with ⟨later, foundLater, _⟩ | ⟨rfl, _⟩
        · exact (itemLists (raw.suffix closed) foundLater).trans closed
        · exact closed
      · intro text rest members raw parsed
        obtain ⟨key, after, item, behind, c, tail, named, found, skipped, ended⟩ :=
          parseMembers_eq_some parsed
        have keyed : after <:+ text :=
          ⟨'"' :: (key.toList ++ ['"', ':']), by simp [parseKey_raw raw named]⟩
        have suffix := (values (raw.suffix keyed) found).1.trans keyed
        rw [(raw.suffix suffix).skipWhitespace_eq] at skipped
        have closed : tail <:+ text := (skipped ▸ List.suffix_cons c tail).trans suffix
        rcases ended with ⟨later, foundLater, _⟩ | ⟨rfl, _⟩
        · exact (memberLists (raw.suffix closed) foundLater).trans closed
        · exact closed

theorem parseMembers_shows {fuel : Nat} {text rest : List Char} {members : List (String × Value)}
    (raw : Raw text) (parsed : parseMembers strtod fuel text = some (members, rest))
    {key string : String} (member : (key, .string string) ∈ members) :
    '"' :: (key.toList ++ ['"', ':', '"']) <:+: text := by
  induction fuel generalizing text members with
  | zero => cases parsed
  | succ fuel ih =>
      obtain ⟨name, after, item, behind, c, tail, named, found, skipped, ended⟩ :=
        parseMembers_eq_some parsed
      have shape := parseKey_raw raw named
      have keyed : after <:+ text :=
        ⟨'"' :: (name.toList ++ ['"', ':']), by simp [shape]⟩
      have value := (parse_suffix fuel).1 (raw.suffix keyed) found
      have suffix := value.1.trans keyed
      rw [(raw.suffix suffix).skipWhitespace_eq] at skipped
      have closed : tail <:+ text := (skipped ▸ List.suffix_cons c tail).trans suffix
      have here : (key, Value.string string) = (name, item) →
          '"' :: (key.toList ++ ['"', ':', '"']) <:+: text := by
        rintro same
        cases same
        have marked := value.2 rfl
        cases after with
        | nil => cases marked
        | cons mark others =>
            cases marked
            exact ⟨[], others, by simp [shape]⟩
      rcases ended with ⟨later, foundLater, rfl⟩ | ⟨_, rfl⟩
      · rcases List.mem_cons.mp member with same | listed
        · exact here same
        · exact (ih (raw.suffix closed) foundLater listed).trans closed.isInfix
      · exact here (List.mem_singleton.mp member)

/-- A parsed object shows its string members' names in front of a quotation mark. -/
theorem parse_shows {text : String} {members : List (String × Value)} (raw : Raw text.toList)
    (unmarked : skipBom text.toList = text.toList)
    (parsed : parse strtod text = some (.object members)) {key string : String}
    (member : (key, .string string) ∈ members) :
    '"' :: (key.toList ++ ['"', ':', '"']) <:+: text.toList := by
  rw [parse, unmarked, Option.bind_eq_bind, Option.bind_eq_some_iff] at parsed
  obtain ⟨⟨value, rest⟩, found, ended⟩ := parsed
  simp only at ended
  split at ended
  · cases ended
    cases start : text.toList with
    | nil =>
        rw [start] at found
        cases found
    | cons c tail =>
        rw [start] at found raw
        have within : Raw tail := raw.suffix (List.suffix_cons c tail)
        rw [parseValue_cons (raw c (by simp)).1, within.skipWhitespace_eq] at found
        split at found
        · split at found
          · cases found
            cases member
          · obtain ⟨⟨others, behind⟩, read, same⟩ := Option.map_eq_some_iff.mp found
            cases same
            exact (parseMembers_shows within read member).trans (List.suffix_cons c tail).isInfix
        split at found
        · split at found
          · cases found
          · obtain ⟨_, _, same⟩ := Option.map_eq_some_iff.mp found
            cases same
        · exact absurd (parseScalar_suffix raw found).2.1 (by simp [Value.isObject])
  · cases ended

end Values

end Idsm.Json
