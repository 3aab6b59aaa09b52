import Mathlib

/-! The line protocol of a time series database: its points, how they are read and how they
are written. Commas, blanks and equal signs separate; behind a backslash they do not. -/

set_option autoImplicit false

namespace Idsm.Foundation.LineProtocol

inductive FieldValue where
  | text (characters : List Char)
  | integer (value : Int)
  | unsigned (value : Nat)
  | float (token : List Char)
  | boolean (value : Bool)
  deriving DecidableEq

structure Point where
  measurement : List Char
  tags : List (List Char × List Char)
  fields : List (List Char × FieldValue)
  timestamp : Option Int
  deriving DecidableEq

/-! Reading. -/

/-- The characters that a backslash makes part of a text. -/
def special (c : Char) : Bool := c == ',' || c == '=' || c == ' '

def stops (c : Char) : Bool := special c || c == '\n'

/-- Put a character before what was read. -/
def before (c : Char) (read : List Char × List Char) : List Char × List Char :=
  (c :: read.1, read.2)

/-- A name or a tag's value, up to the first separator. `held` is true behind a backslash that
may yet turn out to be a character of its own. -/
def scanFrom (held : Bool) : List Char → List Char × List Char
  | [] => (if held then ['\\'] else [], [])
  | c :: rest =>
      if held then
        if special c then before c (scanFrom false rest)
        else if c = '\\' then before c (scanFrom true rest)
        else if c = '\n' then (['\\'], c :: rest)
        else before '\\' (before c (scanFrom false rest))
      else if c = '\\' then scanFrom true rest
      else if stops c then ([], c :: rest)
      else before c (scanFrom false rest)

def scanText (text : List Char) : List Char × List Char := scanFrom false text

/-- The body of a string, up to its closing quote. Line breaks are part of it. -/
def scanString (held : Bool) : List Char → Option (List Char × List Char)
  | [] => none
  | c :: rest =>
      if held then
        if c = '"' ∨ c = '\\' then (scanString false rest).map (before c)
        else (scanString false rest).map fun read => before '\\' (before c read)
      else if c = '"' then some ([], rest)
      else if c = '\\' then scanString true rest
      else (scanString false rest).map (before c)

def digitsValue (digits : List Char) : Option Nat :=
  if digits ≠ [] ∧ digits.all Char.isDigit = true then some (Nat.ofDigitChars 10 digits 0)
  else none

/-- A signed decimal number of 64 bits. -/
def readInteger : List Char → Option Int
  | '-' :: digits => do
      let value ← digitsValue digits
      if value ≤ 2 ^ 63 then some (-(value : Int)) else none
  | digits => do
      let value ← digitsValue digits
      if value < 2 ^ 63 then some (value : Int) else none

def isFraction : List Char → Bool
  | [] => true
  | c :: rest => c == '.' && rest.all Char.isDigit

def isExponent : List Char → Bool
  | [] => true
  | c :: rest =>
      (c == 'e' || c == 'E') &&
        (digitsValue (match rest with
          | '+' :: more => more
          | '-' :: more => more
          | _ => rest)).isSome

def isFloat (token : List Char) : Bool :=
  let magnitude := if token.head? = some '-' then token.tail else token
  let whole := magnitude.takeWhile Char.isDigit
  let behind := magnitude.dropWhile Char.isDigit
  let fraction := behind.takeWhile fun c => c == '.' || c.isDigit
  whole ≠ [] && isFraction fraction && isExponent (behind.dropWhile fun c => c == '.' || c.isDigit)

def readToken (token : List Char) : Option FieldValue :=
  match token.getLast? with
  | some 'i' => (readInteger token.dropLast).map .integer
  | some 'u' => (digitsValue token.dropLast).bind fun value =>
      if value < 2 ^ 64 then some (.unsigned value) else none
  | _ =>
      if token ∈ ["t", "T", "true", "True", "TRUE"].map String.toList then some (.boolean true)
      else if token ∈ ["f", "F", "false", "False", "FALSE"].map String.toList then
        some (.boolean false)
      else if isFloat token then some (.float token)
      else none

def readValue : List Char → Option (FieldValue × List Char)
  | '"' :: rest => (scanString false rest).map fun read => (.text read.1, read.2)
  | text =>
      let token := text.takeWhile (!stops ·)
      (readToken token).map fun value => (value, text.dropWhile (!stops ·))

/-- A name, an equal sign and what follows it. -/
def readKey (text : List Char) : Option (List Char × List Char) :=
  match scanText text with
  | ([], _) => none
  | (key, '=' :: rest) => some (key, rest)
  | _ => none

/-- The tags, each behind a comma. -/
def readTags : Nat → List Char → Option (List (List Char × List Char) × List Char)
  | fuel + 1, ',' :: text => do
      let (key, rest) ← readKey text
      let (value, behind) := scanText rest
      if value = [] then none
      else
        let (tags, last) ← readTags fuel behind
        some ((key, value) :: tags, last)
  | 0, ',' :: _ => none
  | _, text => some ([], text)

/-- The fields, with commas between them. -/
def readFields : Nat → List Char → Option (List (List Char × FieldValue) × List Char)
  | 0, _ => none
  | fuel + 1, text => do
      let (key, rest) ← readKey text
      let (value, behind) ← readValue rest
      match behind with
      | ',' :: more =>
          let (fields, last) ← readFields fuel more
          some ((key, value) :: fields, last)
      | _ => some ([(key, value)], behind)

/-- The time behind a blank, when there is one. -/
def readTimestamp : List Char → Option (Option Int × List Char)
  | ' ' :: text =>
      (readInteger (text.takeWhile (!stops ·))).map fun time =>
        (some time, text.dropWhile (!stops ·))
  | text => some (none, text)

/-- One point, and the rest behind the end of its line. -/
def readPoint (text : List Char) : Option (Point × List Char) := do
  let (measurement, rest) := scanText text
  if measurement = [] then none
  else
    let (tags, behind) ← readTags text.length rest
    match behind with
    | ' ' :: more =>
        let (fields, last) ← readFields text.length more
        let (timestamp, left) ← readTimestamp last
        match left with
        | [] => some (⟨measurement, tags, fields, timestamp⟩, [])
        | '\n' :: next => some (⟨measurement, tags, fields, timestamp⟩, next)
        | _ => none
    | _ => none

def readPoints : Nat → List Char → Option (List Point)
  | _, [] => some []
  | 0, _ => none
  | fuel + 1, text => do
      let (point, rest) ← readPoint text
      let points ← readPoints fuel rest
      some (point :: points)

/-- All points of a text. -/
def parse (text : List Char) : Option (List Point) := readPoints text.length text

/-! Writing. -/

def escapeString (characters : List Char) : List Char :=
  characters.flatMap fun c => if c = '\\' ∨ c = '"' then ['\\', c] else [c]

def writeValue : FieldValue → List Char
  | .text characters => '"' :: (escapeString characters ++ ['"'])
  | .integer value => (toString value).toList ++ ['i']
  | .unsigned value => Nat.toDigits 10 value ++ ['u']
  | .float token => token
  | .boolean value => (toString value).toList

def writeTag (tag : List Char × List Char) : List Char := tag.1 ++ '=' :: tag.2

def writeField (field : List Char × FieldValue) : List Char := field.1 ++ '=' :: writeValue field.2

/-- A point with its time, its names and tags as they are. -/
def writePoint (measurement : List Char) (tags : List (List Char × List Char))
    (fields : List (List Char × FieldValue)) (timestamp : Int) : List Char :=
  measurement ++ tags.flatMap (fun tag => ',' :: writeTag tag) ++
    ' ' :: ([','].intercalate (fields.map writeField) ++ ' ' :: (toString timestamp).toList)

/-! Texts as they are. -/

section Texts

variable {text rest characters : List Char} {stop : Char}

/-- A text without separators that leaves the next separator one. -/
structure Plain (text : List Char) : Prop where
  clean : ∀ c ∈ text, stops c = false
  ending : text.getLast? ≠ some '\\'

theorem Plain.nil : Plain [] := ⟨fun _ member => (nomatch member), by decide⟩

theorem Plain.cons {c : Char} (plain : Plain text) (clean : stops c = false)
    (open' : text = [] → c ≠ '\\') : Plain (c :: text) := by
  constructor
  · intro other member
    cases member with
    | head => exact clean
    | tail _ later => exact plain.clean other later
  · cases text with
    | nil => simpa using open' rfl
    | cons next text =>
        rw [List.getLast?_cons_cons]
        exact plain.ending

theorem Plain.tail {c : Char} (plain : Plain (c :: text)) : Plain text := by
  constructor
  · exact fun other member => plain.clean other (List.mem_cons_of_mem _ member)
  · cases text with
    | nil => decide
    | cons next text =>
        have ending := plain.ending
        rwa [List.getLast?_cons_cons] at ending

theorem stops_of_special (separates : special stop = true) : stops stop = true := by
  rw [stops, separates, Bool.true_or]

theorem special_ne (separates : special stop = true) : stop ≠ '\\' := by
  intro same
  rw [same] at separates
  cases separates

theorem special_of_not_stops {c : Char} (clean : stops c = false) :
    special c = false ∧ c ≠ '\n' := by
  rw [stops, Bool.or_eq_false_iff] at clean
  exact ⟨clean.1, by simpa using clean.2⟩

/-- A plain text is read as it is, also behind a backslash. -/
theorem scanFrom_plain (stopping : stops stop = true) (rest : List Char) (text : List Char) :
    Plain text → scanFrom false (text ++ stop :: rest) = (text, stop :: rest) ∧
      (text ≠ [] → scanFrom true (text ++ stop :: rest) = ('\\' :: text, stop :: rest)) := by
  have visible : stop ≠ '\\' := by
    intro same
    rw [same] at stopping
    cases stopping
  induction text with
  | nil =>
      intro _
      exact ⟨by simp [scanFrom, visible, stopping], fun none => absurd rfl none⟩
  | cons c text ih =>
      intro plain
      have clean := plain.clean c List.mem_cons_self
      have apart := special_of_not_stops clean
      obtain ⟨free, held⟩ := ih plain.tail
      by_cases backslash : c = '\\'
      · have more : text ≠ [] := by
          intro last
          have ending := plain.ending
          rw [last, backslash] at ending
          exact ending rfl
        subst backslash
        constructor
        · simp only [List.cons_append, scanFrom, Bool.false_eq_true, if_false, if_true, held more]
        · intro _
          simp only [List.cons_append, scanFrom, if_true, apart.1, Bool.false_eq_true, if_false,
            held more, before]
      · constructor
        · simp only [List.cons_append, scanFrom, Bool.false_eq_true, if_false, backslash, clean, free,
            before]
        · intro _
          simp only [List.cons_append, scanFrom, if_true, apart.1, Bool.false_eq_true, if_false,
            backslash, apart.2, free, before]

/-- Only a plain text is read as it is. -/
theorem plain_of_scanFrom (separates : special stop = true) (rest : List Char) (text : List Char) :
    ((scanFrom false (text ++ stop :: rest)).1 = text →
      Plain text ∧ (scanFrom false (text ++ stop :: rest)).2 = stop :: rest) ∧
    ((scanFrom true (text ++ stop :: rest)).1 = '\\' :: text →
      text ≠ [] ∧ Plain text ∧ (scanFrom true (text ++ stop :: rest)).2 = stop :: rest) := by
  have visible := special_ne separates
  induction text with
  | nil =>
      constructor
      · intro _
        exact ⟨.nil, by simp [scanFrom, visible, stops_of_special separates]⟩
      · intro same
        simp only [List.nil_append, scanFrom, if_true, separates, before, List.cons.injEq] at same
        exact absurd same.1 visible
  | cons c text ih =>
      obtain ⟨free, held⟩ := ih
      constructor
      · intro same
        rw [List.cons_append, scanFrom] at same ⊢
        simp only [Bool.false_eq_true, if_false] at same ⊢
        by_cases backslash : c = '\\'
        · simp only [backslash, if_true] at same ⊢
          obtain ⟨more, plain, left⟩ := held same
          exact ⟨plain.cons (by decide) fun none => absurd none more, left⟩
        · simp only [backslash, if_false] at same ⊢
          cases stopping : stops c with
          | true => simp [stopping] at same
          | false =>
              simp only [stopping, Bool.false_eq_true, if_false, before, List.cons.injEq,
                true_and] at same ⊢
              obtain ⟨plain, left⟩ := free same
              exact ⟨plain.cons stopping fun _ => backslash, left⟩
      · intro same
        rw [List.cons_append, scanFrom] at same ⊢
        simp only [if_true] at same ⊢
        cases separator : special c with
        | true =>
            simp only [separator, if_true, before, List.cons.injEq] at same
            exact absurd same.1 (special_ne separator)
        | false =>
            simp only [separator, Bool.false_eq_true, if_false] at same ⊢
            by_cases backslash : c = '\\'
            · simp only [backslash, if_true, before, List.cons.injEq, true_and] at same ⊢
              obtain ⟨more, plain, left⟩ := held same
              exact ⟨List.cons_ne_nil _ _, plain.cons (by decide) fun none => absurd none more, left⟩
            · simp only [backslash, if_false] at same ⊢
              by_cases newline : c = '\n'
              · simp [newline] at same
              · simp only [newline, if_false, before, List.cons.injEq, true_and] at same ⊢
                obtain ⟨plain, left⟩ := free same
                have clean : stops c = false := by simp [stops, separator, newline]
                exact ⟨List.cons_ne_nil _ _, plain.cons clean fun _ => backslash, left⟩

/-- An escaped text is read back. -/
theorem scanString_escape (characters rest : List Char) :
    scanString false (escapeString characters ++ '"' :: rest) = some (characters, rest) := by
  induction characters with
  | nil => simp [escapeString, scanString]
  | cons c characters ih =>
      rw [escapeString] at ih ⊢
      rw [List.flatMap_cons, List.append_assoc]
      by_cases marked : c = '\\' ∨ c = '"'
      · rw [if_pos marked, List.cons_append, scanString]
        simp only [Bool.false_eq_true, if_false, if_true, show '\\' ≠ '"' by decide,
          List.cons_append, List.nil_append]
        rw [scanString]
        simp only [if_true, marked.symm, ih, Option.map_some, before]
      · have visible := not_or.mp marked
        rw [if_neg marked, List.cons_append, List.nil_append, scanString]
        simp only [Bool.false_eq_true, if_false, visible.1, visible.2, ih, Option.map_some, before]

end Texts

/-! Numbers. -/

section Numbers

variable {value : Int} {token : List Char}

def InRange (value : Int) : Prop := -2 ^ 63 ≤ value ∧ value < 2 ^ 63

instance (value : Int) : Decidable (InRange value) := instDecidableAnd

theorem digitsValue_toDigits (number : Nat) :
    digitsValue (Nat.toDigits 10 number) = some number := by
  have digits : (Nat.toDigits 10 number).all Char.isDigit = true := by
    rw [List.all_eq_true]
    exact fun _ member => Nat.isDigit_of_mem_toDigits (by decide) (by decide) member
  rw [digitsValue, if_pos ⟨Nat.toDigits_ne_nil, digits⟩, Nat.ofDigitChars_ten_toDigits]

private theorem toDigits_unsigned (number : Nat) (rest : List Char) :
    Nat.toDigits 10 number ≠ '-' :: rest := by
  intro same
  have digit : ('-').isDigit = true :=
    Nat.isDigit_of_mem_toDigits (b := 10) (n := number) (by decide) (by decide)
      (same ▸ List.mem_cons_self)
  cases digit

theorem readInteger_toString (inRange : InRange value) :
    readInteger (toString value).toList = some value := by
  cases value with
  | ofNat number =>
      have text : (toString (Int.ofNat number)).toList = Nat.toDigits 10 number :=
        Nat.toList_repr
      have small : number < 2 ^ 63 := by
        have high := inRange.2
        simp only [Int.ofNat_eq_natCast] at high
        omega
      rw [text, readInteger.eq_2 _ (toDigits_unsigned number), digitsValue_toDigits]
      rw [Option.bind_eq_bind, Option.bind_some, if_pos small]
      rfl
  | negSucc number =>
      have text : (toString (Int.negSucc number)).toList = '-' :: Nat.toDigits 10 (number + 1) := by
        rw [show toString (Int.negSucc number) = "-" ++ (number + 1).repr from rfl,
          String.toList_append, Nat.toList_repr]
        rfl
      have small : number + 1 ≤ 2 ^ 63 := by
        have low := inRange.1
        simp only [Int.negSucc_eq] at low
        omega
      rw [text, readInteger, digitsValue_toDigits]
      rw [Option.bind_eq_bind, Option.bind_some, if_pos small]
      rfl

theorem inRange_of_readInteger (read : readInteger token = some value) : InRange value := by
  unfold readInteger at read
  split at read
  · obtain ⟨number, _, read⟩ := Option.bind_eq_some_iff.mp read
    split at read
    · cases read
      constructor <;> omega
    · cases read
  · obtain ⟨number, _, read⟩ := Option.bind_eq_some_iff.mp read
    split at read
    · cases read
      constructor <;> omega
    · cases read

/-- The text of a whole number has no separator. -/
theorem toString_clean (value : Int) : ∀ c ∈ (toString value).toList, stops c = false := by
  have digit : ∀ {c : Char}, c.isDigit = true → stops c = false := by
    intro c isDigit
    cases stopping : stops c with
    | false => rfl
    | true =>
        simp only [stops, special, Bool.or_eq_true, beq_iff_eq] at stopping
        rcases stopping with ((rfl | rfl) | rfl) | rfl <;> cases isDigit
  have digits : ∀ number, ∀ c ∈ Nat.toDigits 10 number, stops c = false := fun number c member =>
    digit (Nat.isDigit_of_mem_toDigits (by decide) (by decide) member)
  cases value with
  | ofNat number =>
      rw [show (toString (Int.ofNat number)).toList = Nat.toDigits 10 number from Nat.toList_repr]
      exact digits number
  | negSucc number =>
      rw [show toString (Int.negSucc number) = "-" ++ (number + 1).repr from rfl,
        String.toList_append, Nat.toList_repr]
      intro c member
      rcases List.mem_append.mp member with sign | more
      · rw [List.mem_singleton.mp sign]
        rfl
      · exact digits _ c more

end Numbers

/-! Whole points. -/

section Points

variable {text rest key behind : List Char} {value : FieldValue} {stop : Char}

/-- The values that are read back as they were written. -/
def Writable : FieldValue → Prop
  | .text _ => True
  | .integer value => InRange value
  | _ => False

private theorem takeWhile_token (clean : ∀ c ∈ text, stops c = false) (stopping : stops stop = true)
    (rest : List Char) :
    (text ++ stop :: rest).takeWhile (!stops ·) = text ∧
      (text ++ stop :: rest).dropWhile (!stops ·) = stop :: rest := by
  have all : ∀ c ∈ text, (!stops c) = true := fun c member => by rw [clean c member]; rfl
  constructor
  · rw [List.takeWhile_append_of_pos all]
    simp [stopping]
  · rw [List.dropWhile_append_of_pos all]
    simp [stopping]

theorem readValue_write (writable : Writable value) (stopping : stops stop = true)
    (rest : List Char) :
    readValue (writeValue value ++ stop :: rest) = some (value, stop :: rest) := by
  cases value with
  | text characters =>
      rw [writeValue, List.cons_append, List.append_assoc, List.singleton_append, readValue,
        scanString_escape]
      rfl
  | integer number =>
      have clean : ∀ c ∈ (toString number).toList ++ ['i'], stops c = false := by
        intro c member
        rcases List.mem_append.mp member with inside | last
        · exact toString_clean number c inside
        · rw [List.mem_singleton.mp last]
          rfl
      have unquoted : ∀ other, (toString number).toList ++ ['i'] ++ stop :: rest ≠ '"' :: other := by
        intro other same
        have read := readInteger_toString writable
        cases shown : (toString number).toList with
        | nil =>
            rw [shown] at same
            cases same
        | cons c more =>
            rw [shown] at same read
            cases same
            cases read
      rw [writeValue, readValue.eq_2 _ unquoted]
      obtain ⟨token, left⟩ := takeWhile_token clean stopping rest
      simp only [token, left, readToken, List.getLast?_concat, List.dropLast_concat,
        readInteger_toString writable, Option.map_some]
  | unsigned number => exact absurd writable id
  | float token => exact absurd writable id
  | boolean flag => exact absurd writable id

theorem readKey_plain (plain : Plain key) (some' : key ≠ []) (rest : List Char) :
    readKey (key ++ '=' :: rest) = some (key, rest) := by
  rw [readKey, scanText, (scanFrom_plain (by decide) rest key plain).1]
  cases key with
  | nil => exact absurd rfl some'
  | cons c key => rfl

/-- Tags that are written as they are. -/
structure PlainTag (tag : List Char × List Char) : Prop where
  key : Plain tag.1
  named : tag.1 ≠ []
  value : Plain tag.2
  given : tag.2 ≠ []

structure PlainField (field : List Char × FieldValue) : Prop where
  key : Plain field.1
  named : field.1 ≠ []
  value : Writable field.2

variable {tags : List (List Char × List Char)} {fields : List (List Char × FieldValue)}
  {measurement : List Char} {timestamp : Int}

/-- A comma or a blank follows. -/
private theorem tags_start (tags : List (List Char × List Char)) (rest : List Char) :
    ∃ stop more, stops stop = true ∧
      tags.flatMap (fun tag => ',' :: writeTag tag) ++ ' ' :: rest = stop :: more := by
  cases tags with
  | nil => exact ⟨' ', rest, rfl, rfl⟩
  | cons tag tags => exact ⟨',', _, rfl, rfl⟩

theorem readTags_write (plain : ∀ tag ∈ tags, PlainTag tag) (rest : List Char) (fuel : Nat)
    (enough : tags.length ≤ fuel) :
    readTags fuel (tags.flatMap (fun tag => ',' :: writeTag tag) ++ ' ' :: rest) =
      some (tags, ' ' :: rest) := by
  induction tags generalizing fuel with
  | nil =>
      cases fuel with
      | zero => rfl
      | succ fuel => rfl
  | cons tag tags ih =>
      cases fuel with
      | zero => exact absurd enough (by simp)
      | succ fuel =>
          have here := plain tag List.mem_cons_self
          have later := ih (fun other member => plain other (List.mem_cons_of_mem _ member)) fuel
            (Nat.le_of_succ_le_succ enough)
          obtain ⟨stop, more, stopping, behind⟩ := tags_start tags rest
          simp only [List.flatMap_cons, writeTag, List.append_assoc, List.cons_append, readTags,
            readKey_plain here.key here.named, Option.bind_eq_bind, Option.bind_some]
          simp only [writeTag] at behind later
          rw [behind] at later ⊢
          simp only [scanText, (scanFrom_plain stopping more tag.2 here.value).1, here.given,
            if_false, later, Option.bind_some]

theorem readFields_write (plain : ∀ field ∈ fields, PlainField field) (some' : fields ≠ [])
    (rest : List Char) (fuel : Nat) (enough : fields.length ≤ fuel) :
    readFields fuel ([','].intercalate (fields.map writeField) ++ ' ' :: rest) =
      some (fields, ' ' :: rest) := by
  induction fields generalizing fuel with
  | nil => exact absurd rfl some'
  | cons field fields ih =>
      cases fuel with
      | zero => exact absurd enough (by simp)
      | succ fuel =>
          have here := plain field List.mem_cons_self
          cases fields with
          | nil =>
              simp only [List.map_cons, List.map_nil, List.intercalate_singleton, writeField,
                List.append_assoc, List.cons_append, readFields,
                readKey_plain here.key here.named, Option.bind_eq_bind, Option.bind_some,
                readValue_write here.value (show stops ' ' = true from rfl)]
              rfl
          | cons next fields =>
              have later := ih (fun other member => plain other (List.mem_cons_of_mem _ member))
                (List.cons_ne_nil _ _) fuel (Nat.le_of_succ_le_succ enough)
              rw [List.map_cons, List.map_cons, List.intercalate_cons_cons]
              rw [List.map_cons] at later
              simp only [writeField, List.append_assoc, List.cons_append, List.nil_append,
                readFields, readKey_plain here.key here.named, Option.bind_eq_bind,
                Option.bind_some, readValue_write here.value (show stops ',' = true from rfl)]
              simp only [writeField] at later
              rw [later]
              rfl

private theorem length_le_flatMap (tags : List (List Char × List Char)) :
    tags.length ≤ (tags.flatMap fun tag => ',' :: writeTag tag).length := by
  induction tags with
  | nil => exact Nat.le_refl _
  | cons tag tags ih =>
      rw [List.flatMap_cons, List.length_append, List.length_cons, List.length_cons]
      omega

private theorem length_le_intercalate (fields : List (List Char × FieldValue)) :
    fields.length ≤ ([','].intercalate (fields.map writeField)).length := by
  induction fields with
  | nil => exact Nat.zero_le _
  | cons field fields ih =>
      cases fields with
      | nil =>
          simp only [List.map_cons, List.map_nil, List.intercalate_singleton, writeField,
            List.length_append, List.length_cons, List.length_nil]
          omega
      | cons next fields =>
          rw [List.map_cons, List.map_cons, List.intercalate_cons_cons, ← List.map_cons]
          simp only [List.length_append, List.length_cons, List.length_nil] at ih ⊢
          omega

/-- A plain point is read back from its text, and nothing else. -/
theorem parse_writePoint (named : Plain measurement) (some' : measurement ≠ [])
    (plainTags : ∀ tag ∈ tags, PlainTag tag) (plainFields : ∀ field ∈ fields, PlainField field)
    (someField : fields ≠ []) (inRange : InRange timestamp) :
    parse (writePoint measurement tags fields timestamp) =
      some [⟨measurement, tags, fields, some timestamp⟩] := by
  have tagsLength := length_le_flatMap tags
  have fieldsLength := length_le_intercalate fields
  obtain ⟨stop, more, stopping, behind⟩ := tags_start tags
    ([','].intercalate (fields.map writeField) ++ ' ' :: (toString timestamp).toList)
  have text : writePoint measurement tags fields timestamp = measurement ++ stop :: more := by
    rw [writePoint, List.append_assoc, behind]
  have room : tags.length ≤ (writePoint measurement tags fields timestamp).length ∧
      fields.length ≤ (writePoint measurement tags fields timestamp).length ∧
      (writePoint measurement tags fields timestamp).length ≠ 0 := by
    simp only [writePoint, List.length_append, List.length_cons]
    omega
  generalize writePoint measurement tags fields timestamp = written at text room
  have time : readTimestamp (' ' :: (toString timestamp).toList) = some (some timestamp, []) := by
    have all : ∀ c ∈ (toString timestamp).toList, (!stops c) = true := fun c member => by
      rw [toString_clean timestamp c member]
      rfl
    rw [readTimestamp, List.takeWhile_eq_self_iff.mpr all, List.dropWhile_eq_nil_iff.mpr all,
      readInteger_toString inRange]
    rfl
  have point : readPoint written = some (⟨measurement, tags, fields, some timestamp⟩, []) := by
    rw [readPoint, text, scanText, (scanFrom_plain stopping more measurement named).1, ← text,
      ← behind]
    simp only [some', if_false, readTags_write plainTags _ _ room.1, Option.bind_eq_bind,
      Option.bind_some, readFields_write plainFields someField _ _ room.2.1, time]
  rw [parse]
  cases written with
  | nil => exact absurd rfl room.2.2
  | cons c written =>
      simp only [List.length_cons, readPoints, point, Option.bind_eq_bind, Option.bind_some]

/-- Every number that is read fits its 64 bits. -/
structure Bounded (point : Point) : Prop where
  fields : ∀ key value, (key, .integer value) ∈ point.fields → InRange value
  timestamp : ∀ time, point.timestamp = some time → InRange time

theorem inRange_of_readValue {number : Int} (read : readValue text = some (.integer number, rest)) :
    InRange number := by
  unfold readValue at read
  split at read
  · obtain ⟨_, _, same⟩ := Option.map_eq_some_iff.mp read
    cases same
  · obtain ⟨value, token, same⟩ := Option.map_eq_some_iff.mp read
    cases same
    unfold readToken at token
    split at token
    · obtain ⟨number, value, same⟩ := Option.map_eq_some_iff.mp token
      cases same
      exact inRange_of_readInteger value
    · obtain ⟨number, _, same⟩ := Option.bind_eq_some_iff.mp token
      split at same <;> cases same
    · repeat' split at token
      all_goals cases token

theorem inRange_of_readFields (fuel : Nat) :
    ∀ text fields rest, readFields fuel text = some (fields, rest) →
      ∀ key value, (key, .integer value) ∈ fields → InRange value := by
  induction fuel with
  | zero => exact fun _ _ _ impossible => nomatch impossible
  | succ fuel ih =>
      intro text fields rest read key value member
      rw [readFields] at read
      obtain ⟨named, _, read⟩ := Option.bind_eq_some_iff.mp read
      obtain ⟨found, valueRead, read⟩ := Option.bind_eq_some_iff.mp read
      obtain ⟨first, behind⟩ := found
      simp only at read
      split at read
      · obtain ⟨others, fieldsRead, same⟩ := Option.bind_eq_some_iff.mp read
        cases same
        cases member with
        | head => exact inRange_of_readValue valueRead
        | tail _ later => exact ih _ _ _ fieldsRead key value later
      · cases read
        rw [List.mem_singleton] at member
        cases member
        exact inRange_of_readValue valueRead

theorem bounded_of_readPoint {point : Point} (read : readPoint text = some (point, rest)) :
    Bounded point := by
  rw [readPoint] at read
  generalize scanText text = scanned at read
  obtain ⟨measurement, more⟩ := scanned
  by_cases unnamed : measurement = []
  · simp [unnamed] at read
  · simp only [unnamed, if_false] at read
    obtain ⟨tags, _, read⟩ := Option.bind_eq_some_iff.mp read
    split at read
    · obtain ⟨fields, fieldsRead, read⟩ := Option.bind_eq_some_iff.mp read
      obtain ⟨time, timeRead, read⟩ := Option.bind_eq_some_iff.mp read
      have timed : ∀ value, time.1 = some value → InRange value := by
        intro value same
        unfold readTimestamp at timeRead
        split at timeRead
        · obtain ⟨number, numberRead, pair⟩ := Option.map_eq_some_iff.mp timeRead
          rw [← pair] at same
          cases same
          exact inRange_of_readInteger numberRead
        · cases timeRead
          cases same
      have fielded := inRange_of_readFields _ _ _ _ fieldsRead
      split at read
      · cases read
        exact ⟨fielded, timed⟩
      · cases read
        exact ⟨fielded, timed⟩
      · cases read
    · cases read

theorem bounded_of_parse {point : Point} {points : List Point} (read : parse text = some points)
    (member : point ∈ points) : Bounded point := by
  rw [parse] at read
  generalize text.length = fuel at read
  induction fuel generalizing text points with
  | zero =>
      cases text with
      | nil =>
          cases read
          cases member
      | cons c text => cases read
  | succ fuel ih =>
      cases text with
      | nil =>
          cases read
          cases member
      | cons c text =>
          simp only [readPoints] at read
          obtain ⟨first, pointRead, read⟩ := Option.bind_eq_some_iff.mp read
          obtain ⟨others, pointsRead, same⟩ := Option.bind_eq_some_iff.mp read
          cases same
          cases member with
          | head => exact bounded_of_readPoint pointRead
          | tail _ later => exact ih later pointsRead

/-- A tag that is read with the value it was written with was written plainly. -/
theorem plain_of_readTags {fuel : Nat} {tag : List Char × List Char} {rest last : List Char}
    (keyPlain : Plain key) (named : key ≠ [])
    (read : readTags fuel (',' :: (key ++ '=' :: (text ++ ',' :: rest))) =
      some (tag :: tags, last)) (same : tag.2 = text) :
    Plain text ∧ text ≠ [] ∧ ∃ less, readTags less (',' :: rest) = some (tags, last) := by
  cases fuel with
  | zero => cases read
  | succ fuel =>
      simp only [readTags, readKey_plain keyPlain named, Option.bind_eq_bind,
        Option.bind_some] at read
      split at read
      · cases read
      next given =>
        obtain ⟨others, later, pair⟩ := Option.bind_eq_some_iff.mp read
        cases pair
        have separates : special ',' = true := rfl
        have plain := (plain_of_scanFrom separates rest text).1 same
        refine ⟨plain.1, fun none => given (same.trans none), fuel, ?_⟩
        rwa [scanText, plain.2] at later

theorem readPoint_measurement {point : Point} (named : Plain measurement) (more : List Char)
    (read : readPoint (measurement ++ ',' :: more) = some (point, rest)) :
    point.measurement = measurement ∧
      ∃ fuel last, readTags fuel (',' :: more) = some (point.tags, last) := by
  rw [readPoint, scanText, (scanFrom_plain (show stops ',' = true from rfl) more measurement
    named).1] at read
  by_cases unnamed : measurement = []
  · simp [unnamed] at read
  · simp only [unnamed, if_false] at read
    obtain ⟨tags, tagsRead, read⟩ := Option.bind_eq_some_iff.mp read
    split at read
    · obtain ⟨fields, _, read⟩ := Option.bind_eq_some_iff.mp read
      obtain ⟨time, _, read⟩ := Option.bind_eq_some_iff.mp read
      split at read
      · cases read
        exact ⟨rfl, _, _, tagsRead⟩
      · cases read
        exact ⟨rfl, _, _, tagsRead⟩
      · cases read
    · cases read

theorem readPoint_of_parse {point : Point} (read : parse text = some [point]) :
    ∃ rest, readPoint text = some (point, rest) := by
  rw [parse] at read
  cases text with
  | nil => cases read
  | cons c text =>
      simp only [List.length_cons, readPoints] at read
      obtain ⟨first, pointRead, read⟩ := Option.bind_eq_some_iff.mp read
      obtain ⟨others, _, same⟩ := Option.bind_eq_some_iff.mp read
      cases same
      exact ⟨_, pointRead⟩

end Points

end Idsm.Foundation.LineProtocol
