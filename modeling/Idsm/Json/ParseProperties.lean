import Idsm.Json.DumpProperties
import Idsm.Json.Parse

/-! What the parser makes of compact texts. A text reads as a value when it does in
front of every delimiter; the rules follow the printer's layout. -/

set_option autoImplicit false

namespace Idsm.Json

open Idsm.Foundation

/-! Literals. -/

theorem hexValue_hexDigit (value : Nat) : hexValue (hexDigit value) = some (value % 16) := by
  have digits : ∀ digit < 16, hexValue (hexDigit digit) = some digit := by decide
  have reduced : hexDigit value = hexDigit (value % 16) := by
    rw [hexDigit, hexDigit, Nat.mod_mod]
  rw [reduced, digits _ (Nat.mod_lt _ (by decide))]

theorem scanString_plain {c : Char} (fuel : Nat) (rest : List Char) (notQuote : c ≠ '"')
    (notSlash : c ≠ '\\') (plain : ¬ c.toNat < 0x20) :
    scanString (fuel + 1) (c :: rest) =
      (scanString fuel rest).map fun scanned => (c :: scanned.1, scanned.2) := by
  simp only [scanString, if_neg notQuote, if_neg notSlash, if_neg plain]
  cases scanString fuel rest <;> rfl

private theorem scanString_simple {c symbol : Char} (fuel : Nat) (rest : List Char)
    (other : symbol ≠ 'u') (escapes : simpleEscape symbol = some c) :
    scanString (fuel + 1) ('\\' :: symbol :: rest) =
      (scanString fuel rest).map fun scanned => (c :: scanned.1, scanned.2) := by
  have slash : '\\' ≠ '"' := by decide
  simp only [scanString, if_neg slash, if_true, if_neg other, escapes]
  cases scanString fuel rest <;> rfl

/-- One escaped character is one turn of the scanner. -/
theorem scanString_escaped (fuel : Nat) (c : Char) (rest : List Char) :
    scanString (fuel + 1) (escaped c ++ rest) =
      (scanString fuel rest).map fun scanned => (c :: scanned.1, scanned.2) := by
  have named : ∀ code : Nat, c.toNat = code → c = Char.ofNat code := by
    rintro code rfl
    exact (Char.ofNat_toNat c).symm
  have words : "\\b".toList = ['\\', 'b'] ∧ "\\t".toList = ['\\', 't'] ∧
      "\\n".toList = ['\\', 'n'] ∧ "\\f".toList = ['\\', 'f'] ∧
      "\\r".toList = ['\\', 'r'] ∧ "\\\"".toList = ['\\', '"'] ∧
      "\\\\".toList = ['\\', '\\'] ∧ "\\u00".toList = ['\\', 'u', '0', '0'] := by decide
  obtain ⟨b, t, n, f, r, mark, slash, code⟩ := words
  rw [escaped]
  split_ifs with isB isT isN isF isR isMark isSlash low
  · rw [b, named _ isB]
    exact scanString_simple fuel rest (by decide) (by decide)
  · rw [t, named _ isT]
    exact scanString_simple fuel rest (by decide) (by decide)
  · rw [n, named _ isN]
    exact scanString_simple fuel rest (by decide) (by decide)
  · rw [f, named _ isF]
    exact scanString_simple fuel rest (by decide) (by decide)
  · rw [r, named _ isR]
    exact scanString_simple fuel rest (by decide) (by decide)
  · rw [mark, named _ isMark]
    exact scanString_simple fuel rest (by decide) (by decide)
  · rw [slash, named _ isSlash]
    exact scanString_simple fuel rest (by decide) (by decide)
  · have zero : hexValue '0' = some 0 := by decide
    have value : (0 * 16 + 0) * 16 + c.toNat / 16 % 16 = c.toNat / 16 := by omega
    have whole : c.toNat / 16 * 16 + c.toNat % 16 = c.toNat := by omega
    have escape : unicodeEscape ('0' :: '0' :: hexDigit (c.toNat / 16) :: hexDigit c.toNat :: rest) =
        some (c, rest) := by
      simp only [unicodeEscape, getCodepoint, zero, hexValue_hexDigit, Option.bind_eq_bind,
        Option.bind_some, pure, value, whole]
      rw [if_neg (by omega), if_neg (by omega), Char.ofNat_toNat]
    have start : '\\' ≠ '"' := by decide
    rw [code]
    simp only [List.cons_append, List.nil_append, scanString, if_neg start, if_true, escape,
      Option.bind_eq_bind, Option.bind_some]
    cases scanString fuel rest <;> rfl
  · refine scanString_plain fuel rest ?_ ?_ (by omega)
    · rintro rfl
      exact isMark (by decide)
    · rintro rfl
      exact isSlash (by decide)

theorem scanString_flatMap {text : List Char} {fuel : Nat} (enough : text.length < fuel)
    (rest : List Char) :
    scanString fuel (text.flatMap escaped ++ '"' :: rest) = some (text, rest) := by
  induction text generalizing fuel with
  | nil =>
      cases fuel with
      | zero => omega
      | succ fuel => rfl
  | cons c text ih =>
      cases fuel with
      | zero => omega
      | succ fuel =>
          rw [List.length_cons] at enough
          rw [List.flatMap_cons, List.append_assoc, scanString_escaped, ih (by omega)]
          rfl

/-! Numbers. -/

/-- What may follow a value. -/
def Delimited (rest : List Char) : Prop :=
  ∀ c ∈ rest.head?, c = ',' ∨ c = ']' ∨ c = '\x7d'

theorem Delimited.nil : Delimited [] := by
  intro c member
  cases member

theorem Delimited.isDigit_eq_false {rest : List Char} (delimited : Delimited rest) :
    ∀ c ∈ rest.head?, c.isDigit = false := by
  intro c member
  rcases delimited c member with rfl | rfl | rfl <;> decide

theorem head_toDigits {number : Nat} (positive : number ≠ 0) :
    (Nat.toDigits 10 number).head? ≠ some '0' := by
  induction number using Nat.strongRecOn with
  | ind number ih =>
      rw [Nat.toDigits_eq_if (by decide)]
      split
      next small =>
        have digits : ∀ digit < 10, digit ≠ 0 → digit.digitChar ≠ '0' := by decide
        simpa using digits number small positive
      next large =>
        have front := ih (number / 10) (by omega) (by omega)
        rw [List.head?_append_of_ne_nil _ Nat.toDigits_ne_nil]
        exact front

theorem takeWhile_digits {digits rest : List Char} (all : ∀ c ∈ digits, c.isDigit = true)
    (stop : ∀ c ∈ rest.head?, c.isDigit = false) :
    (digits ++ rest).takeWhile Char.isDigit = digits ∧
      (digits ++ rest).dropWhile Char.isDigit = rest := by
  have behind : rest.takeWhile Char.isDigit = [] ∧ rest.dropWhile Char.isDigit = rest := by
    cases rest with
    | nil => exact ⟨rfl, rfl⟩
    | cons c rest => simp [stop c rfl]
  rw [List.takeWhile_append_of_pos all, List.dropWhile_append_of_pos all, behind.1, behind.2]
  simp

theorem scanInteger_toDigits (number : Nat) {rest : List Char}
    (stop : ∀ c ∈ rest.head?, c.isDigit = false) :
    scanInteger (Nat.toDigits 10 number ++ rest) = some (Nat.toDigits 10 number, rest) := by
  by_cases zero : number = 0
  · subst zero
    rfl
  · have all : ∀ c ∈ Nat.toDigits 10 number, c.isDigit = true := fun _ member =>
      Nat.isDigit_of_mem_toDigits (by decide) (by decide) member
    have scanned := takeWhile_digits all stop
    have front := head_toDigits zero
    have some : Nat.toDigits 10 number ≠ [] := Nat.toDigits_ne_nil
    revert scanned front some
    generalize Nat.toDigits 10 number = digits
    intro scanned front some
    unfold scanInteger
    split
    next found =>
      cases digits with
      | nil => exact absurd rfl some
      | cons c digits =>
          rw [List.cons_append, List.cons.injEq] at found
          exact absurd (congrArg Option.some found.1) front
    next => rw [scanned.1, scanned.2, if_neg some]

theorem scanNumber_tail {rest : List Char} (delimited : Delimited rest) :
    scanFraction rest = some ([], rest) ∧ scanExponent rest = some ([], rest) := by
  cases rest with
  | nil => exact ⟨rfl, rfl⟩
  | cons c rest => rcases delimited c rfl with rfl | rfl | rfl <;> exact ⟨rfl, rfl⟩

theorem scanNumber_toDigits (number : Nat) {rest : List Char} (delimited : Delimited rest) :
    scanNumber (Nat.toDigits 10 number ++ rest) =
        some (⟨false, Nat.toDigits 10 number, []⟩, rest) ∧
      scanNumber ('-' :: (Nat.toDigits 10 number ++ rest)) =
        some (⟨true, Nat.toDigits 10 number, []⟩, rest) := by
  have integer := scanInteger_toDigits number delimited.isDigit_eq_false
  have tail := scanNumber_tail delimited
  have unsigned : scanSign (Nat.toDigits 10 number ++ rest) =
      (false, Nat.toDigits 10 number ++ rest) := by
    have digits : ∀ c ∈ Nat.toDigits 10 number, c ≠ '-' := by
      rintro c member rfl
      exact absurd (Nat.isDigit_of_mem_toDigits (by decide) (by decide) member) (by decide)
    have some : Nat.toDigits 10 number ≠ [] := Nat.toDigits_ne_nil
    revert digits some
    generalize Nat.toDigits 10 number = text
    intro digits some
    cases text with
    | nil => exact absurd rfl some
    | cons c text =>
        unfold scanSign
        split
        next found =>
          rw [List.cons_append, List.cons.injEq] at found
          exact absurd found.1 (digits c (by simp))
        next => rfl
  constructor
  · simp only [scanNumber, unsigned, integer, tail.1, tail.2, Option.bind_eq_bind, Option.bind_some,
      List.append_nil, pure]
  · simp only [scanNumber, scanSign, integer, tail.1, tail.2, Option.bind_eq_bind, Option.bind_some,
      List.append_nil, pure]

/-! Values. -/

section Reads

variable {strtod : List Char → Option Binary64}

theorem skipWhitespace_cons {c : Char} (dark : isWhitespace c = false) (rest : List Char) :
    skipWhitespace (c :: rest) = c :: rest := by
  rw [skipWhitespace, List.dropWhile_cons_of_neg (by simp [dark])]

/-- A value that begins with this character. -/
theorem parseValue_cons {c : Char} (dark : isWhitespace c = false) (fuel : Nat) (rest : List Char) :
    parseValue strtod (fuel + 1) (c :: rest) =
      if c = '\x7b' then
        if (skipWhitespace rest).head? = some '\x7d' then
          some (.object [], (skipWhitespace rest).tail)
        else (parseMembers strtod fuel (skipWhitespace rest)).map fun parsed =>
          (.object parsed.1, parsed.2)
      else if c = '[' then
        if (skipWhitespace rest).head? = some ']' then
          some (.array [], (skipWhitespace rest).tail)
        else (parseItems strtod fuel (skipWhitespace rest)).map fun parsed =>
          (.array parsed.1, parsed.2)
      else parseScalar strtod c rest := by
  rw [parseValue, skipWhitespace_cons dark]

/-- A character a value can begin with. -/
abbrev Opens (c : Char) : Prop :=
  isWhitespace c = false ∧ c ≠ ']' ∧ c ≠ '\x7d' ∧ c.toNat ≠ 0xFEFF

/-- The text of a value, wherever it stands: it begins with a character of its own and
is read up to the delimiter behind it. -/
structure Reads (strtod : List Char → Option Binary64) (text : String) (value : Value) : Prop where
  start : ∃ c rest, text.toList = c :: rest ∧ Opens c
  parsed : ∀ fuel rest, 2 * text.length ≤ fuel → Delimited rest →
    parseValue strtod fuel (text.toList ++ rest) = some (value, rest)

theorem scanString_quote (text : String) (rest : List Char) :
    scanString ((text.toList.flatMap escaped ++ '"' :: rest).length + 1)
        (text.toList.flatMap escaped ++ '"' :: rest) = some (text.toList, rest) := by
  refine scanString_flatMap ?_ rest
  have turns : ∀ symbols : List Char, symbols.length ≤ (symbols.flatMap escaped).length := by
    intro symbols
    induction symbols with
    | nil => simp
    | cons c symbols ih =>
        have one : 1 ≤ (escaped c).length := by
          rw [escaped]
          split_ifs <;> simp
        rw [List.flatMap_cons, List.length_append, List.length_cons]
        omega
  have longer := turns text.toList
  rw [List.length_append]
  omega

theorem Reads.of_scalar {text : String} {value : Value}
    (start : ∃ c rest, text.toList = c :: rest ∧ Opens c ∧ c ≠ '\x7b' ∧ c ≠ '[' ∧
      ∀ behind, Delimited behind → parseScalar strtod c (rest ++ behind) = some (value, behind)) :
    Reads strtod text value := by
  obtain ⟨c, rest, shape, opens, notObject, notArray, parsed⟩ := start
  refine ⟨⟨c, rest, shape, opens⟩, fun fuel behind enough delimited => ?_⟩
  cases fuel with
  | zero =>
      have length := congrArg List.length shape
      rw [String.length_toList, List.length_cons] at length
      omega
  | succ fuel =>
      rw [shape, List.cons_append, parseValue_cons opens.1, if_neg notObject, if_neg notArray,
        parsed behind delimited]

theorem reads_quote (text : String) : Reads strtod (quote text) (.string text) := by
  refine .of_scalar ⟨'"', _, toList_quote text, by decide, by decide, by decide, fun behind _ => ?_⟩
  rw [parseScalar, if_pos rfl, List.append_assoc, List.cons_append, List.nil_append,
    scanString_quote]
  simp

theorem reads_literals : Reads strtod "true" (.boolean true) ∧
    Reads strtod "false" (.boolean false) ∧ Reads strtod "null" .null := by
  refine ⟨.of_scalar ⟨'t', ['r', 'u', 'e'], by decide, by decide, by decide, by decide,
    fun behind _ => rfl⟩, .of_scalar ⟨'f', ['a', 'l', 's', 'e'], by decide, by decide, by decide,
    by decide, fun behind _ => rfl⟩, .of_scalar ⟨'n', ['u', 'l', 'l'], by decide, by decide,
    by decide, by decide, fun behind _ => rfl⟩⟩

private theorem digit_scalar {c : Char} (digit : c.isDigit = true ∨ c = '-') :
    Opens c ∧ c ≠ '\x7b' ∧ c ≠ '[' ∧ c ≠ '"' ∧ c ≠ 't' ∧ c ≠ 'f' ∧ c ≠ 'n' := by
  rcases digit with digit | rfl
  · have named : ∀ symbol : Char, symbol.isDigit = false → c ≠ symbol := by
      rintro symbol other rfl
      rw [digit] at other
      cases other
    refine ⟨⟨?_, named _ (by decide), named _ (by decide), fun bom => ?_⟩, named _ (by decide),
      named _ (by decide), named _ (by decide), named _ (by decide), named _ (by decide),
      named _ (by decide)⟩
    · simp [isWhitespace, named ' ' (by decide), named '\t' (by decide), named '\n' (by decide),
        named '\r' (by decide)]
    · have mark : c = Char.ofNat 0xFEFF := by rw [← bom, Char.ofNat_toNat]
      exact named _ (by decide) mark
  · decide

theorem Reads.of_number {text : String} (token : NumberToken) {value : Value}
    (start : ∃ c rest, text.toList = c :: rest ∧ (c.isDigit = true ∨ c = '-'))
    (scanned : ∀ behind, Delimited behind → scanNumber (text.toList ++ behind) = some (token, behind))
    (valued : token.value strtod = some value) : Reads strtod text value := by
  obtain ⟨c, rest, shape, digit⟩ := start
  obtain ⟨opens, object, array, mark, t, f, n⟩ := digit_scalar digit
  refine .of_scalar ⟨c, rest, shape, opens, object, array, fun behind delimited => ?_⟩
  have scanned := scanned behind delimited
  rw [shape, List.cons_append] at scanned
  simp only [parseScalar, if_neg mark, if_neg t, if_neg f, if_neg n, scanned, valued,
    Option.bind_eq_bind, Option.bind_some, pure]

private theorem exists_digit (number : Nat) :
    ∃ c rest, Nat.toDigits 10 number = c :: rest ∧ c.isDigit = true := by
  have all : ∀ c ∈ Nat.toDigits 10 number, c.isDigit = true := fun _ member =>
    Nat.isDigit_of_mem_toDigits (by decide) (by decide) member
  cases digits : Nat.toDigits 10 number with
  | nil => exact absurd digits Nat.toDigits_ne_nil
  | cons c rest => exact ⟨c, rest, rfl, all c (by simp [digits])⟩

theorem toList_toString (number : Nat) : (toString number).toList = Nat.toDigits 10 number := by
  rw [Nat.toString_eq_repr, Nat.toList_repr]

theorem reads_unsigned (number : UInt64) :
    Reads strtod (toString number.toNat) (.unsigned number) := by
  have bound := number.toNat_lt
  refine .of_number ⟨false, Nat.toDigits 10 number.toNat, []⟩ ?_ ?_ ?_
  · obtain ⟨c, rest, shape, digit⟩ := exists_digit number.toNat
    exact ⟨c, rest, by rw [toList_toString, shape], .inl digit⟩
  · intro behind delimited
    rw [toList_toString]
    exact (scanNumber_toDigits _ delimited).1
  · simp [NumberToken.value, Nat.ofDigitChars_ten_toDigits, bound]

theorem reads_integer {number : Int64} (negative : number.toInt < 0) :
    Reads strtod (toString number.toInt) (.integer number) := by
  obtain ⟨magnitude, shape⟩ : ∃ magnitude : Nat, number.toInt = .negSucc magnitude := by
    cases whole : number.toInt with
    | ofNat magnitude =>
        rw [whole] at negative
        exact absurd negative (by simp)
    | negSucc magnitude => exact ⟨magnitude, rfl⟩
  have low := number.le_toInt
  have text : (toString number.toInt).toList = '-' :: Nat.toDigits 10 (magnitude + 1) := by
    have sign : Int.repr (.negSucc magnitude) = "-" ++ Nat.repr (magnitude + 1) := rfl
    have minus : "-".toList = ['-'] := by decide
    rw [Int.toString_eq_repr, shape, sign, String.toList_append, minus, Nat.toList_repr]
    rfl
  refine .of_number ⟨true, Nat.toDigits 10 (magnitude + 1), []⟩ ?_ ?_ ?_
  · exact ⟨'-', _, text, .inr rfl⟩
  · intro behind delimited
    rw [text, List.cons_append]
    exact (scanNumber_toDigits _ delimited).2
  · have bound : magnitude + 1 ≤ 2 ^ 63 := by omega
    have whole : (-((magnitude + 1 : Nat) : Int)) = number.toInt := by omega
    simp only [NumberToken.value, Nat.ofDigitChars_ten_toDigits, Bool.true_eq_false, and_false,
      false_and, if_false, true_and]
    rw [if_pos bound, whole, Int64.ofInt_toInt]

/-! Arrays and objects. -/

theorem toList_commaJoined (start piece : String) (pieces : List String) :
    (commaJoined start (piece :: pieces)).toList =
      start.toList ++ (piece.toList ++ pieces.flatMap fun later => ',' :: later.toList) := by
  have comma : ",".toList = [','] := by decide
  have folded : ∀ start : String,
      (pieces.foldl (fun out later => out ++ "," ++ later) start).toList =
        start.toList ++ pieces.flatMap fun later => ',' :: later.toList := by
    induction pieces with
    | nil => simp
    | cons later rest ih => simp [ih, String.toList_append, comma]
  rw [commaJoined, folded, String.toList_append, List.append_assoc]

theorem Delimited.cons {c : Char} (delimiter : c = ',' ∨ c = ']' ∨ c = '\x7d') (rest : List Char) :
    Delimited (c :: rest) := by
  intro other member
  cases member
  exact delimiter

section Steps

variable {fuel : Nat} {text rest : List Char} {item : Value} {key : String}

theorem parseItems_comma (parsed : parseValue strtod fuel text = some (item, ',' :: rest)) :
    parseItems strtod (fuel + 1) text =
      (parseItems strtod fuel rest).map fun later => (item :: later.1, later.2) := by
  have comma : skipWhitespace (',' :: rest) = ',' :: rest := skipWhitespace_cons (by decide) rest
  simp only [parseItems, parsed, Option.bind_eq_bind, Option.bind_some, comma, if_true]

theorem parseItems_close (parsed : parseValue strtod fuel text = some (item, ']' :: rest)) :
    parseItems strtod (fuel + 1) text = some ([item], rest) := by
  have bracket : skipWhitespace (']' :: rest) = ']' :: rest := skipWhitespace_cons (by decide) rest
  have other : ']' ≠ ',' := by decide
  simp only [parseItems, parsed, Option.bind_eq_bind, Option.bind_some, bracket, if_neg other,
    if_true]

variable {text' : List Char}

theorem parseMembers_comma (named : parseKey text = some (key, text'))
    (parsed : parseValue strtod fuel text' = some (item, ',' :: rest)) :
    parseMembers strtod (fuel + 1) text =
      (parseMembers strtod fuel rest).map fun later => ((key, item) :: later.1, later.2) := by
  have comma : skipWhitespace (',' :: rest) = ',' :: rest := skipWhitespace_cons (by decide) rest
  simp only [parseMembers, named, parsed, Option.bind_eq_bind, Option.bind_some, comma, if_true]

theorem parseMembers_close (named : parseKey text = some (key, text'))
    (parsed : parseValue strtod fuel text' = some (item, '\x7d' :: rest)) :
    parseMembers strtod (fuel + 1) text = some ([(key, item)], rest) := by
  have brace : skipWhitespace ('\x7d' :: rest) = '\x7d' :: rest :=
    skipWhitespace_cons (by decide) rest
  have other : '\x7d' ≠ ',' := by decide
  simp only [parseMembers, named, parsed, Option.bind_eq_bind, Option.bind_some, brace,
    if_neg other, if_true]

end Steps

/-- The pieces behind the first, each behind its comma. -/
def commaLed (pieces : List String) : List Char :=
  pieces.flatMap fun piece => ',' :: piece.toList

theorem parseItems_joined {piece : String} {pieces : List String} {item : Value}
    {items : List Value} (first : Reads strtod piece item)
    (others : List.Forall₂ (Reads strtod) pieces items) (fuel : Nat) (rest : List Char)
    (enough : 2 * (piece.length + (commaLed pieces).length) < fuel) :
    parseItems strtod fuel (piece.toList ++ (commaLed pieces ++ ']' :: rest)) =
      some (item :: items, rest) := by
  induction others generalizing piece item fuel with
  | nil =>
      cases fuel with
      | zero => omega
      | succ fuel =>
          exact parseItems_close
            (first.parsed fuel _ (by omega) (Delimited.cons (.inr (.inl rfl)) rest))
  | @cons piece' item' pieces items first' others ih =>
      have shape : commaLed (piece' :: pieces) = ',' :: (piece'.toList ++ commaLed pieces) := rfl
      have length : (commaLed (piece' :: pieces)).length =
          piece'.length + (commaLed pieces).length + 1 := by
        rw [shape, List.length_cons, List.length_append, String.length_toList]
      cases fuel with
      | zero => omega
      | succ fuel =>
          rw [shape, List.cons_append, List.append_assoc,
            parseItems_comma (first.parsed fuel _ (by omega) (Delimited.cons (.inl rfl) _)),
            ih first' fuel (by omega)]
          rfl

theorem reads_array {pieces : List String} {items : List Value}
    (read : List.Forall₂ (Reads strtod) pieces items) :
    Reads strtod (commaJoined "[" pieces ++ "]") (.array items) := by
  have marks : "[".toList = ['['] ∧ "]".toList = [']'] := by decide
  have fixed : '[' ≠ '\x7b' := by decide
  cases read with
  | nil =>
      refine ⟨⟨'[', [']'], by decide, by decide⟩, fun fuel rest enough _ => ?_⟩
      have empty : (commaJoined "[" [] ++ "]").toList = ['[', ']'] := by decide
      have close : skipWhitespace (']' :: rest) = ']' :: rest := skipWhitespace_cons (by decide) rest
      cases fuel with
      | zero => exact absurd enough (by decide)
      | succ fuel =>
          rw [empty, List.cons_append, List.cons_append, List.nil_append,
            parseValue_cons (by decide), if_neg fixed, if_pos rfl, close]
          rfl
  | @cons piece item pieces items first others =>
      have shape : (commaJoined "[" (piece :: pieces) ++ "]").toList =
          '[' :: (piece.toList ++ (commaLed pieces ++ [']'])) := by
        rw [String.toList_append, toList_commaJoined, marks.1, marks.2]
        simp [commaLed]
      obtain ⟨c, tail, start, dark, notBracket, _⟩ := first.start
      refine ⟨⟨'[', _, shape, by decide⟩, fun fuel rest enough _ => ?_⟩
      have length := congrArg List.length shape
      simp only [String.length_toList, List.length_cons, List.length_append] at length
      have untouched : skipWhitespace (piece.toList ++ (commaLed pieces ++ ']' :: rest)) =
          piece.toList ++ (commaLed pieces ++ ']' :: rest) := by
        rw [start, List.cons_append, skipWhitespace_cons dark]
      have open' : ¬ (piece.toList ++ (commaLed pieces ++ ']' :: rest)).head? = some ']' := by
        rw [start, List.cons_append, List.head?_cons, Option.some.injEq]
        exact notBracket
      cases fuel with
      | zero => omega
      | succ fuel =>
          rw [shape, List.cons_append, List.append_assoc, List.append_assoc, List.cons_append,
            List.nil_append, parseValue_cons (by decide), if_neg fixed, if_pos rfl, untouched,
            if_neg open', parseItems_joined first others fuel rest (by omega)]
          rfl

theorem parseKey_quote (key : String) (rest : List Char) :
    parseKey ((quote key).toList ++ ':' :: rest) = some (key, rest) := by
  have mark : ∀ behind, skipWhitespace ('"' :: behind) = '"' :: behind := fun behind =>
    skipWhitespace_cons (by decide) behind
  have colon : skipWhitespace (':' :: rest) = ':' :: rest := skipWhitespace_cons (by decide) rest
  rw [toList_quote, List.cons_append, List.append_assoc, List.cons_append, List.nil_append,
    parseKey, mark]
  simp only [scanString_quote, Option.bind_eq_bind, Option.bind_some, colon, String.ofList_toList]

/-- A member's text. -/
def memberPiece (member : String × String) : String := quote member.1 ++ ":" ++ member.2

/-- A member's text and the member. -/
def ReadsMember (strtod : List Char → Option Binary64) (piece : String × String)
    (member : String × Value) : Prop :=
  piece.1 = member.1 ∧ Reads strtod piece.2 member.2

theorem toList_memberPiece (piece : String × String) :
    (memberPiece piece).toList = (quote piece.1).toList ++ ':' :: piece.2.toList := by
  have colon : ":".toList = [':'] := by decide
  rw [memberPiece, String.toList_append, String.toList_append, colon, List.append_assoc]
  rfl

theorem parseMembers_joined {piece : String × String} {pieces : List (String × String)}
    {member : String × Value} {members : List (String × Value)}
    (first : ReadsMember strtod piece member)
    (others : List.Forall₂ (ReadsMember strtod) pieces members) (fuel : Nat) (rest : List Char)
    (enough : 2 * ((memberPiece piece).length + (commaLed (pieces.map memberPiece)).length) < fuel) :
    parseMembers strtod fuel
        ((memberPiece piece).toList ++ (commaLed (pieces.map memberPiece) ++ '\x7d' :: rest)) =
      some (member :: members, rest) := by
  induction others generalizing piece member fuel with
  | nil =>
      have alone : commaLed (([] : List (String × String)).map memberPiece) = [] := rfl
      have length := congrArg List.length (toList_memberPiece piece)
      simp only [String.length_toList, List.length_append, List.length_cons] at length
      cases fuel with
      | zero => omega
      | succ fuel =>
          rw [alone, List.nil_append, toList_memberPiece, List.append_assoc, List.cons_append,
            parseMembers_close (parseKey_quote _ _)
              (first.2.parsed fuel _ (by omega) (Delimited.cons (.inr (.inr rfl)) rest)), first.1]
  | @cons piece' member' pieces members first' others ih =>
      have shape : commaLed ((piece' :: pieces).map memberPiece) =
          ',' :: ((memberPiece piece').toList ++ commaLed (pieces.map memberPiece)) := rfl
      have length' : (commaLed ((piece' :: pieces).map memberPiece)).length =
          (memberPiece piece').length + (commaLed (pieces.map memberPiece)).length + 1 := by
        rw [shape, List.length_cons, List.length_append, String.length_toList]
      have length := congrArg List.length (toList_memberPiece piece)
      simp only [String.length_toList, List.length_append, List.length_cons] at length
      cases fuel with
      | zero => omega
      | succ fuel =>
          rw [shape, List.cons_append, List.append_assoc, toList_memberPiece, List.append_assoc,
            List.cons_append, parseMembers_comma (parseKey_quote _ _)
              (first.2.parsed fuel _ (by omega) (Delimited.cons (.inl rfl) _)),
            ih first' fuel (by omega), first.1]
          rfl

theorem reads_object {pieces : List (String × String)} {members : List (String × Value)}
    (read : List.Forall₂ (ReadsMember strtod) pieces members) :
    Reads strtod (commaJoined "\x7b" (pieces.map memberPiece) ++ "\x7d") (.object members) := by
  have marks : "\x7b".toList = ['\x7b'] ∧ "\x7d".toList = ['\x7d'] := by decide
  cases read with
  | nil =>
      refine ⟨⟨'\x7b', ['\x7d'], by decide, by decide⟩, fun fuel rest enough _ => ?_⟩
      have empty : (commaJoined "\x7b" (([] : List (String × String)).map memberPiece) ++
          "\x7d").toList = ['\x7b', '\x7d'] := by decide
      have close : skipWhitespace ('\x7d' :: rest) = '\x7d' :: rest :=
        skipWhitespace_cons (by decide) rest
      cases fuel with
      | zero => exact absurd enough (by decide)
      | succ fuel =>
          rw [empty, List.cons_append, List.cons_append, List.nil_append,
            parseValue_cons (by decide), if_pos rfl, close]
          rfl
  | @cons piece member pieces members first others =>
      have shape : (commaJoined "\x7b" ((piece :: pieces).map memberPiece) ++ "\x7d").toList =
          '\x7b' :: ((memberPiece piece).toList ++
            (commaLed (pieces.map memberPiece) ++ ['\x7d'])) := by
        rw [String.toList_append, List.map_cons, toList_commaJoined, marks.1, marks.2]
        simp [commaLed]
      have start : (memberPiece piece).toList =
          '"' :: (piece.1.toList.flatMap escaped ++ '"' :: ':' :: piece.2.toList) := by
        rw [toList_memberPiece, toList_quote]
        simp
      refine ⟨⟨'\x7b', _, shape, by decide⟩, fun fuel rest enough _ => ?_⟩
      have length := congrArg List.length shape
      simp only [String.length_toList, List.length_cons, List.length_append] at length
      have untouched : skipWhitespace ((memberPiece piece).toList ++
          (commaLed (pieces.map memberPiece) ++ '\x7d' :: rest)) = (memberPiece piece).toList ++
          (commaLed (pieces.map memberPiece) ++ '\x7d' :: rest) := by
        rw [start, List.cons_append, skipWhitespace_cons (by decide)]
      have open' : ¬ ((memberPiece piece).toList ++
          (commaLed (pieces.map memberPiece) ++ '\x7d' :: rest)).head? = some '\x7d' := by
        rw [start, List.cons_append, List.head?_cons]
        decide
      cases fuel with
      | zero => omega
      | succ fuel =>
          rw [shape, List.cons_append, List.append_assoc, List.append_assoc, List.cons_append,
            List.nil_append, parseValue_cons (by decide), if_pos rfl, untouched, if_neg open',
            parseMembers_joined first others fuel rest (by omega)]
          rfl

/-- A text that reads as a value parses to it. -/
theorem Reads.parse_eq {text : String} {value : Value} (read : Reads strtod text value) :
    parse strtod text = some value := by
  obtain ⟨c, rest, start, opens⟩ := read.start
  have whole := read.parsed (2 * text.length + 2) [] (by omega) Delimited.nil
  have kept : skipBom text.toList = text.toList := by
    rw [start, skipBom, if_neg opens.2.2.2]
  rw [List.append_nil] at whole
  rw [parse, kept, whole]
  rfl

/-! The printer and the parser. -/

mutual

/-- A value as the parser returns it from the printer's text: members in ascending
order of their names, no number that another kind also prints. -/
def Normal : Value → Prop
  | .integer number => number.toInt < 0
  | .float _ => False
  | .array items => NormalItems items
  | .object members => members.Pairwise (fun first second => first.1 < second.1) ∧
      NormalMembers members
  | _ => True

def NormalItems : List Value → Prop
  | [] => True
  | item :: rest => Normal item ∧ NormalItems rest

def NormalMembers : List (String × Value) → Prop
  | [] => True
  | member :: rest => Normal member.2 ∧ NormalMembers rest

end

variable (floatText : Binary64 → String)

private theorem keys_dumpMembers (level : Nat) (members : List (String × Value)) :
    (dumpMembers (nlohmann floatText none) level members).map Prod.fst =
      members.map Prod.fst := by
  induction members with
  | nil => rfl
  | cons member rest ih =>
      obtain ⟨name, value⟩ := member
      rw [dumpMembers, List.map_cons, List.map_cons, ih]

private theorem memberText_compact (member : String × String) :
    memberText (nlohmann floatText none) member = memberPiece member := rfl

mutual

theorem reads_dumpAt (level : Nat) : ∀ value : Value, Normal value →
    Reads strtod (dumpAt (nlohmann floatText none) level value) value
  | .null, _ => reads_literals.2.2
  | .boolean true, _ => reads_literals.1
  | .boolean false, _ => reads_literals.2.1
  | .unsigned number, _ => reads_unsigned number
  | .integer _, normal => reads_integer normal
  | .float _, normal => normal.elim
  | .string text, _ => reads_quote text
  | .array items, normal => by
      rw [dumpAt, bracketed_compact rfl]
      exact reads_array (reads_dumpItems (level + 1) items normal)
  | .object members, normal => by
      have names : ((dumpMembers (nlohmann floatText none) (level + 1) members).map
          Prod.fst).Pairwise (· < ·) := by
        rw [keys_dumpMembers]
        exact List.pairwise_map.mpr normal.1
      rw [dumpAt, objectText, OrderedMap.entries_ofList (List.pairwise_map.mp names),
        bracketed_compact rfl]
      exact reads_object (reads_dumpMembers (level + 1) members normal.2)

theorem reads_dumpItems (level : Nat) : ∀ items : List Value, NormalItems items →
    List.Forall₂ (Reads strtod) (dumpItems (nlohmann floatText none) level items) items
  | [], _ => .nil
  | item :: rest, normal =>
      .cons (reads_dumpAt level item normal.1) (reads_dumpItems level rest normal.2)

theorem reads_dumpMembers (level : Nat) : ∀ members : List (String × Value),
    NormalMembers members →
    List.Forall₂ (ReadsMember strtod) (dumpMembers (nlohmann floatText none) level members) members
  | [], _ => .nil
  | (_, value) :: rest, normal =>
      .cons ⟨rfl, reads_dumpAt level value normal.1⟩ (reads_dumpMembers level rest normal.2)

end

/-- A whole number that is not negative is read back as an unsigned one. -/
def parsedInteger (number : Int64) : Value :=
  if number.toInt < 0 then .integer number else .unsigned (UInt64.ofNat number.toInt.toNat)

theorem normal_parsedInteger (number : Int64) : Normal (parsedInteger number) := by
  unfold parsedInteger
  split
  next negative => exact negative
  next => trivial

/-- Values with the same text wherever they stand. -/
def PrintsAlike (printer : Printer) (value value' : Value) : Prop :=
  ∀ level, dumpAt printer level value = dumpAt printer level value'

namespace PrintsAlike

variable {printer : Printer}

theorem refl (value : Value) : PrintsAlike printer value value := fun _ => rfl

theorem trans {first second third : Value} (before : PrintsAlike printer first second)
    (after : PrintsAlike printer second third) : PrintsAlike printer first third := fun level =>
  (before level).trans (after level)

theorem integer (number : Int64) : PrintsAlike printer (.integer number) (parsedInteger number) := by
  intro level
  unfold parsedInteger
  split
  next => rfl
  next negative =>
    have bound := number.toInt_lt
    have value : (UInt64.ofNat number.toInt.toNat).toNat = number.toInt.toNat := by
      rw [UInt64.toNat_ofNat']
      exact Nat.mod_eq_of_lt (by omega)
    have whole : number.toInt = (number.toInt.toNat : Int) := by omega
    rw [dumpAt, dumpAt, value]
    conv_lhs => rw [whole]
    rfl

theorem array {items items' : List Value}
    (alike : List.Forall₂ (PrintsAlike printer) items items') :
    PrintsAlike printer (.array items) (.array items') := by
  have pieces : ∀ level, dumpItems printer level items = dumpItems printer level items' := by
    intro level
    induction alike with
    | nil => rfl
    | cons first _ ih => rw [dumpItems, dumpItems, first level, ih]
  intro level
  rw [dumpAt, dumpAt, pieces]

theorem object {members members' : List (String × Value)}
    (alike : List.Forall₂ (fun member member' => member.1 = member'.1 ∧
      PrintsAlike printer member.2 member'.2) members members') :
    PrintsAlike printer (.object members) (.object members') := by
  have pieces : ∀ level, dumpMembers printer level members = dumpMembers printer level members' := by
    intro level
    induction alike with
    | nil => rfl
    | @cons member member' _ _ first _ ih =>
        obtain ⟨name, value⟩ := member
        obtain ⟨name', value'⟩ := member'
        obtain ⟨rfl, same⟩ := first
        rw [dumpMembers, dumpMembers, same level, ih]
  intro level
  rw [dumpAt, dumpAt, pieces]

theorem perm {members members' : List (String × Value)} (distinct : (members.map Prod.fst).Nodup)
    (reordered : members.Perm members') :
    PrintsAlike printer (.object members) (.object members') := by
  have mapped : ∀ level (members : List (String × Value)), dumpMembers printer level members =
      members.map fun member => (member.1, dumpAt printer level member.2) := by
    intro level members
    induction members with
    | nil => rfl
    | cons member rest ih =>
        obtain ⟨name, value⟩ := member
        rw [dumpMembers, ih, List.map_cons]
  intro level
  rw [dumpAt, dumpAt, mapped, mapped]
  refine congrArg (objectText printer level) (OrderedMap.ofList_perm ?_ (reordered.map _))
  rw [List.map_map]
  exact distinct

end PrintsAlike

/-- A value is read back from its compact text. -/
theorem parse_dump {value : Value} (normal : Normal value) :
    parse strtod (dump floatText value none) = some value :=
  (reads_dumpAt floatText 0 value normal).parse_eq

end Reads

end Idsm.Json
