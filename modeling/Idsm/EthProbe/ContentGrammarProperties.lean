import Idsm.EthProbe.Rules

/-! The grammar of content values, against what their parser accepts. -/

set_option autoImplicit false

namespace Idsm.EthProbe

section Grammar

/-- A blank or a hex digit. -/
def blockChar (c : UInt8) : Bool := isSpace c || (hexNibble c).isSome

inductive ContentToken where
  | literal (c : UInt8) (plain : c ≠ 92 ∧ c ≠ 124)
  | escape (c : UInt8)
  | block (inner : List UInt8) (digits : inner.all blockChar = true)

def nibbles (inner : List UInt8) : List UInt8 := inner.filterMap hexNibble

def nibblePairs : List UInt8 → List UInt8
  | hi :: lo :: rest => (hi <<< 4 ||| lo) :: nibblePairs rest
  | _ => []

namespace ContentToken

def text : ContentToken → List UInt8
  | literal c _ => [c]
  | escape c => [92, c]
  | block inner _ => 124 :: (inner ++ [124])

def bytes : ContentToken → List UInt8
  | literal c _ => [c]
  | escape c => [c]
  | block inner _ => nibblePairs (nibbles inner)

/-- No digit of a block is left over. -/
def Whole : ContentToken → Prop
  | block inner _ => (nibbles inner).length % 2 = 0
  | _ => True

end ContentToken

/-- The tokens of a value; a lone backslash escapes nothing. -/
structure ContentText where
  tokens : List ContentToken
  lone : Bool

namespace ContentText

def tail (value : ContentText) : List UInt8 := if value.lone then [92] else []

def text (value : ContentText) : List UInt8 :=
  34 :: (value.tokens.flatMap ContentToken.text ++ value.tail ++ [34])

def bytes (value : ContentText) : List UInt8 :=
  value.tokens.flatMap ContentToken.bytes ++ value.tail

structure WellFormed (value : ContentText) : Prop where
  noLone : value.lone = false
  whole : ∀ token ∈ value.tokens, token.Whole

end ContentText

end Grammar

section Reading

variable {reading result : ContentReading} {c : UInt8} {rest text out : List UInt8}
  {hi : Option UInt8}

/-- One character, unless it is a backslash outside of a block. -/
theorem contentLoop_cons (noEscape : ¬ (c = 92 ∧ reading.hex = false)) :
    contentLoop reading (c :: rest) =
      match contentStep reading c with
      | .error err => .error err
      | .ok next => contentLoop next rest := by
  cases rest with
  | nil =>
      rw [contentLoop]
      cases contentStep reading c with
      | error err => rfl
      | ok next => rfl
  | cons next rest =>
      rw [contentLoop]
      exact if_neg noEscape

theorem contentLoop_bar (hex : Bool) :
    contentLoop ⟨hex, hi, out⟩ (124 :: rest) = contentLoop ⟨!hex, none, out⟩ rest := by
  rw [contentLoop_cons (by simp)]
  rfl

theorem contentLoop_literal (plain : c ≠ 92 ∧ c ≠ 124) :
    contentLoop ⟨false, hi, out⟩ (c :: rest) = contentLoop ⟨false, hi, out ++ [c]⟩ rest := by
  rw [contentLoop_cons fun escape => plain.1 escape.1, contentStep, if_neg plain.2]
  rfl

theorem contentLoop_escape :
    contentLoop ⟨false, hi, out⟩ (92 :: c :: rest) = contentLoop ⟨false, hi, out ++ [c]⟩ rest := by
  rw [contentLoop, if_pos ⟨rfl, rfl⟩]

theorem contentLoop_lone : contentLoop ⟨false, hi, out⟩ [92] = .ok ⟨false, hi, out ++ [92]⟩ := rfl

private theorem blank_bits : ∀ bits : BitVec 8,
    isSpace (UInt8.ofBitVec bits) = true →
      UInt8.ofBitVec bits ≠ 124 ∧ hexNibble (UInt8.ofBitVec bits) = none := by
  decide

theorem contentLoop_blank (blank : isSpace c = true) :
    contentLoop ⟨true, hi, out⟩ (c :: rest) = contentLoop ⟨true, hi, out⟩ rest := by
  rw [contentLoop_cons (by simp), contentStep,
    if_neg (blank_bits c.toBitVec blank).1, if_pos rfl, if_pos blank]

theorem contentLoop_digit {nib : UInt8} (digit : hexNibble c = some nib) :
    contentLoop ⟨true, hi, out⟩ (c :: rest) =
      match hi with
      | none => contentLoop ⟨true, some nib, out⟩ rest
      | some hi => contentLoop ⟨true, none, out ++ [hi <<< 4 ||| nib]⟩ rest := by
  have noBar : c ≠ 124 := by
    rintro rfl
    cases digit
  have noBlank : ¬ isSpace c = true := by
    intro blank
    have none := (blank_bits c.toBitVec blank).2
    exact nomatch none.symm.trans digit
  rw [contentLoop_cons (by simp), contentStep, if_neg noBar, if_pos rfl,
    if_neg noBlank, digit]
  cases hi with
  | none => rfl
  | some hi => rfl

/-- A digit that is left over when the block is closed is dropped. -/
theorem contentLoop_block {inner : List UInt8} (digits : inner.all blockChar = true) :
    contentLoop ⟨true, hi, out⟩ (inner ++ 124 :: rest) =
      contentLoop ⟨false, none, out ++ nibblePairs (hi.toList ++ nibbles inner)⟩ rest := by
  induction inner generalizing hi out with
  | nil =>
      have none_left : nibblePairs (hi.toList ++ nibbles []) = [] := by cases hi <;> rfl
      rw [List.nil_append, contentLoop_bar, none_left, List.append_nil]
      rfl
  | cons c inner ih =>
      obtain ⟨first, later⟩ := Bool.and_eq_true_iff.mp digits
      rw [List.cons_append]
      cases digit : hexNibble c with
      | none =>
          have blank : isSpace c = true := by simpa [blockChar, digit] using first
          have same : nibbles (c :: inner) = nibbles inner := by
            rw [nibbles, List.filterMap_cons, digit, nibbles]
          rw [contentLoop_blank blank, ih later, same]
      | some nib =>
          have more : nibbles (c :: inner) = nib :: nibbles inner := by
            rw [nibbles, List.filterMap_cons, digit, nibbles]
          rw [contentLoop_digit digit, more]
          cases hi with
          | none => exact ih later
          | some hi =>
              dsimp only
              rw [ih later]
              simp [nibblePairs]

theorem contentLoop_tokens (tokens : List ContentToken) :
    contentLoop ⟨false, none, out⟩ (tokens.flatMap ContentToken.text ++ rest) =
      contentLoop ⟨false, none, out ++ tokens.flatMap ContentToken.bytes⟩ rest := by
  induction tokens generalizing out with
  | nil => simp
  | cons token tokens ih =>
      rw [List.flatMap_cons, List.flatMap_cons, List.append_assoc, ← List.append_assoc out]
      cases token with
      | literal c plain =>
          rw [← ih]
          exact contentLoop_literal plain
      | escape c =>
          rw [← ih]
          exact contentLoop_escape
      | block inner digits =>
          rw [← ih]
          simp only [ContentToken.text, List.cons_append, List.append_assoc, List.nil_append]
          rw [contentLoop_bar]
          exact contentLoop_block digits

/-- A block that is read to its end stands in the text with its closing bar. -/
theorem block_of_contentLoop (read : contentLoop ⟨true, hi, out⟩ text = .ok result)
    (closed : result.hex = false) :
    ∃ inner rest after, inner.all blockChar = true ∧ text = inner ++ 124 :: rest ∧
      contentLoop ⟨false, none, after⟩ rest = .ok result := by
  induction text generalizing hi out with
  | nil =>
      obtain rfl := Except.ok.inj read
      cases closed
  | cons c text ih =>
      by_cases bar : c = 124
      · subst bar
        rw [contentLoop_bar] at read
        exact ⟨[], text, out, rfl, rfl, read⟩
      · have noEscape : ¬ (c = 92 ∧ (⟨true, hi, out⟩ : ContentReading).hex = false) :=
          fun escape => nomatch escape.2
        cases blank : isSpace c with
        | true =>
            rw [contentLoop_blank blank] at read
            obtain ⟨inner, rest, after, digits, rfl, onward⟩ := ih read
            exact ⟨c :: inner, rest, after, by simp [blockChar, blank, digits], rfl, onward⟩
        | false =>
            cases digit : hexNibble c with
            | none =>
                rw [contentLoop_cons noEscape, contentStep, if_neg bar, if_pos rfl,
                  if_neg (by simp [blank]), digit] at read
                cases read
            | some nib =>
                have first : blockChar c = true := by simp [blockChar, digit]
                rw [contentLoop_digit digit] at read
                cases hi with
                | none =>
                    obtain ⟨inner, rest, after, digits, rfl, onward⟩ := ih read
                    exact ⟨c :: inner, rest, after, by simp [first, digits], rfl, onward⟩
                | some hi =>
                    obtain ⟨inner, rest, after, digits, rfl, onward⟩ := ih read
                    exact ⟨c :: inner, rest, after, by simp [first, digits], rfl, onward⟩

/-- What is read to its end is a sequence of tokens, with or without a lone backslash. -/
theorem tokens_of_contentLoop (read : contentLoop ⟨false, none, out⟩ text = .ok result)
    (closed : result.hex = false) :
    ∃ value : ContentText, text = value.tokens.flatMap ContentToken.text ++ value.tail := by
  generalize long : text.length = length
  induction length using Nat.strongRecOn generalizing text out with
  | _ length ih =>
      cases text with
      | nil => exact ⟨⟨[], false⟩, rfl⟩
      | cons c rest =>
          by_cases bar : c = 124
          · subst bar
            rw [contentLoop_bar] at read
            obtain ⟨inner, rest, after, digits, rfl, onward⟩ := block_of_contentLoop read closed
            obtain ⟨value, split⟩ := ih rest.length (by simp at long; omega) onward rfl
            refine ⟨⟨.block inner digits :: value.tokens, value.lone⟩, ?_⟩
            rw [split]
            simp [ContentToken.text, ContentText.tail]
          · by_cases escape : c = 92
            · subst escape
              cases rest with
              | nil => exact ⟨⟨[], true⟩, rfl⟩
              | cons next rest =>
                  rw [contentLoop_escape] at read
                  obtain ⟨value, split⟩ := ih rest.length (by simp at long; omega) read rfl
                  refine ⟨⟨.escape next :: value.tokens, value.lone⟩, ?_⟩
                  rw [split]
                  rfl
            · rw [contentLoop_literal ⟨escape, bar⟩] at read
              obtain ⟨value, split⟩ := ih rest.length (by simp at long; omega) read rfl
              refine ⟨⟨.literal c ⟨escape, bar⟩ :: value.tokens, value.lone⟩, ?_⟩
              rw [split]
              rfl

theorem contentLoop_value (value : ContentText) :
    contentLoop ⟨false, none, out⟩ (value.tokens.flatMap ContentToken.text ++ value.tail) =
      .ok ⟨false, none, out ++ value.bytes⟩ := by
  rw [contentLoop_tokens, ContentText.bytes, ContentText.tail, ← List.append_assoc]
  cases value.lone with
  | true => exact contentLoop_lone
  | false => rw [if_neg (by simp), List.append_nil, contentLoop]

end Reading

section Values

variable {raw rest : List UInt8} {pattern : Pattern} {c : UInt8}

private theorem slice_quoted (inner : List UInt8) :
    slice (34 :: (inner ++ [34])) 1 ((34 :: (inner ++ [34])).length - 2) = inner := by
  simp [slice]

/-- The quotes around a value. -/
private theorem quoted_iff :
    (¬ (raw.length < 2 ∨ raw.head? ≠ some 34 ∨ raw.getLast? ≠ some 34)) ↔
      ∃ inner, raw = 34 :: (inner ++ [34]) := by
  constructor
  · intro quoted
    simp only [not_or, Nat.not_lt, ne_eq, Decidable.not_not] at quoted
    obtain ⟨long, first, last⟩ := quoted
    cases raw with
    | nil => cases first
    | cons c rest =>
        obtain rfl := Option.some.inj first
        have something : rest ≠ [] := by
          rintro rfl
          simp at long
        rw [List.getLast?_cons, List.getLast?_eq_some_getLast something] at last
        refine ⟨rest.dropLast, ?_⟩
        have final := Option.some.inj last
        rw [Option.getD_some] at final
        rw [← final, List.dropLast_append_getLast something, final]
  · intro ⟨inner, same⟩
    subst same
    simp [List.getLast?_cons]

theorem parseContentValue_text (value : ContentText) :
    parseContentValue value.text =
      if found : value.bytes ≠ [] then .ok ⟨value.bytes, found⟩ else .error "empty content" := by
  have quoted : ∃ inner, value.text = 34 :: (inner ++ [34]) := ⟨_, rfl⟩
  rw [parseContentValue, if_neg (quoted_iff.2 quoted)]
  have inner := slice_quoted (value.tokens.flatMap ContentToken.text ++ value.tail)
  rw [ContentText.text, inner, contentLoop_value, List.nil_append]
  rfl

theorem text_of_parseContentValue (parsed : parseContentValue raw = .ok pattern) :
    ∃ value : ContentText, value.text = raw := by
  rw [parseContentValue] at parsed
  by_cases bare : raw.length < 2 ∨ raw.head? ≠ some 34 ∨ raw.getLast? ≠ some 34
  · rw [if_pos bare] at parsed
    cases parsed
  · rw [if_neg bare] at parsed
    obtain ⟨inner, rfl⟩ := quoted_iff.1 bare
    rw [slice_quoted] at parsed
    cases read : contentLoop ⟨false, none, []⟩ inner with
    | error err =>
        rw [read] at parsed
        cases parsed
    | ok result =>
        rw [read] at parsed
        dsimp only at parsed
        by_cases unclosed : result.hex = true ∨ result.hi.isSome = true
        · rw [if_pos unclosed] at parsed
          cases parsed
        · have closed : result.hex = false := by
            cases hex : result.hex with
            | false => rfl
            | true => exact absurd (.inl hex) unclosed
          obtain ⟨value, split⟩ := tokens_of_contentLoop read closed
          exact ⟨value, by rw [ContentText.text, split]⟩

/-- The parser accepts the values with tokens, and reads what they denote. -/
theorem parseContentValue_eq_ok :
    parseContentValue raw = .ok pattern ↔
      ∃ value : ContentText, value.text = raw ∧ value.bytes = pattern.val := by
  constructor
  · intro parsed
    obtain ⟨value, rfl⟩ := text_of_parseContentValue parsed
    rw [parseContentValue_text] at parsed
    by_cases found : value.bytes ≠ []
    · rw [dif_pos found] at parsed
      obtain rfl := Except.ok.inj parsed
      exact ⟨value, rfl, rfl⟩
    · rw [dif_neg found] at parsed
      cases parsed
  · intro ⟨value, written, denoted⟩
    have found : value.bytes ≠ [] := denoted ▸ pattern.property
    rw [← written, parseContentValue_text, dif_pos found]
    exact congrArg Except.ok (Subtype.ext denoted)

private theorem not_bar (digits : blockChar c = true) : c ≠ 124 := by
  rintro rfl
  exact absurd digits (by decide)

/-- A block ends at the first bar. -/
private theorem block_unique {inner other rest otherRest : List UInt8}
    (digits : inner.all blockChar = true) (otherDigits : other.all blockChar = true)
    (same : inner ++ 124 :: rest = other ++ 124 :: otherRest) :
    inner = other ∧ rest = otherRest := by
  induction inner generalizing other with
  | nil =>
      cases other with
      | nil => exact ⟨rfl, (List.cons.inj same).2⟩
      | cons c other =>
          obtain ⟨first, _⟩ := Bool.and_eq_true_iff.mp otherDigits
          exact absurd (List.cons.inj same).1.symm (not_bar first)
  | cons c inner ih =>
      obtain ⟨first, later⟩ := Bool.and_eq_true_iff.mp digits
      cases other with
      | nil => exact absurd (List.cons.inj same).1 (not_bar first)
      | cons d other =>
          obtain ⟨_, otherLater⟩ := Bool.and_eq_true_iff.mp otherDigits
          obtain ⟨rfl, onward⟩ := List.cons.inj same
          obtain ⟨rfl, rfl⟩ := ih later otherLater onward
          exact ⟨rfl, rfl⟩

/-- A lone backslash is no token, whatever follows. -/
private theorem tail_ne_token (value : ContentText) (token : ContentToken) :
    value.tail ≠ token.text ++ rest := by
  intro same
  unfold ContentText.tail at same
  split at same
  · cases token with
    | literal c plain => exact plain.1 (List.cons.inj same).1.symm
    | escape c => exact nomatch (List.cons.inj same).2
    | block inner digits => exact absurd (List.cons.inj same).1 (by decide)
  · cases token with
    | literal c plain => cases same
    | escape c => cases same
    | block inner digits => cases same

private theorem token_unique {token other : ContentToken} {rest otherRest : List UInt8}
    (same : token.text ++ rest = other.text ++ otherRest) :
    token = other ∧ rest = otherRest := by
  cases token with
  | literal c plain =>
      cases other with
      | literal d otherPlain =>
          obtain ⟨rfl, onward⟩ := List.cons.inj same
          exact ⟨rfl, onward⟩
      | escape d => exact absurd (List.cons.inj same).1 plain.1
      | block inner digits => exact absurd (List.cons.inj same).1 plain.2
  | escape c =>
      cases other with
      | literal d otherPlain => exact absurd (List.cons.inj same).1.symm otherPlain.1
      | escape d =>
          obtain ⟨rfl, onward⟩ := List.cons.inj (List.cons.inj same).2
          exact ⟨rfl, onward⟩
      | block inner digits => exact absurd (List.cons.inj same).1 (by decide)
  | block inner digits =>
      cases other with
      | literal d otherPlain => exact absurd (List.cons.inj same).1.symm otherPlain.2
      | escape d => exact absurd (List.cons.inj same).1 (by decide)
      | block otherInner otherDigits =>
          have behind := (List.cons.inj same).2
          simp only [List.append_eq, List.append_assoc, List.cons_append, List.nil_append]
            at behind
          obtain ⟨rfl, onward⟩ := block_unique digits otherDigits behind
          exact ⟨rfl, onward⟩

/-- A text has one sequence of tokens. -/
theorem tokens_unique {value other : ContentText} (same : value.text = other.text) :
    value = other := by
  have inner := List.append_cancel_right (List.cons.inj same).2
  obtain ⟨tokens, lone⟩ := value
  obtain ⟨others, otherLone⟩ := other
  clear same
  induction tokens generalizing others with
  | nil =>
      cases others with
      | nil =>
          cases lone <;> cases otherLone
          · rfl
          · cases inner
          · cases inner
          · rfl
      | cons token others =>
          simp only [List.flatMap_nil, List.nil_append, List.flatMap_cons,
            List.append_assoc] at inner
          exact absurd inner (tail_ne_token ⟨[], lone⟩ token)
  | cons token tokens ih =>
      cases others with
      | nil =>
          simp only [List.flatMap_nil, List.nil_append, List.flatMap_cons,
            List.append_assoc] at inner
          exact absurd inner.symm (tail_ne_token ⟨[], otherLone⟩ token)
      | cons other others =>
          simp only [List.flatMap_cons, List.append_assoc] at inner
          obtain ⟨rfl, onward⟩ := token_unique inner
          obtain ⟨rfl, rfl⟩ := ContentText.mk.inj (ih others onward)
          rfl

/-- The value is accepted when it follows the grammar, and read as what it denotes. -/
def GrammarHolds (raw : List UInt8) : Prop :=
  ∀ pattern : Pattern, parseContentValue raw = .ok pattern ↔
    ∃ value : ContentText, value.WellFormed ∧ value.text = raw ∧ value.bytes = pattern.val

theorem grammarHolds_iff (raw : List UInt8) :
    GrammarHolds raw ↔
      ∀ value : ContentText, value.text = raw → value.bytes ≠ [] → value.WellFormed := by
  constructor
  · intro holds value written found
    obtain ⟨other, wellFormed, otherWritten, _⟩ :=
      (holds ⟨value.bytes, found⟩).mp (parseContentValue_eq_ok.2 ⟨value, written, rfl⟩)
    rw [tokens_unique (written.trans otherWritten.symm)]
    exact wellFormed
  · intro strict pattern
    rw [parseContentValue_eq_ok]
    constructor
    · intro ⟨value, written, denoted⟩
      exact ⟨value, strict value written (denoted ▸ pattern.property), written, denoted⟩
    · intro ⟨value, _, written, denoted⟩
      exact ⟨value, written, denoted⟩

/-- `|12 3|`: its last digit has no partner. -/
def oddBlock : ContentText := ⟨[.block [49, 50, 32, 51] (by decide)], false⟩

theorem left_over_digit_dropped :
    parseContentValue oddBlock.text = .ok ⟨[0x12], by decide⟩ ∧ ¬ GrammarHolds oddBlock.text := by
  have accepted : parseContentValue oddBlock.text = .ok ⟨[0x12], by decide⟩ := by
    rw [parseContentValue_text]
    rfl
  refine ⟨accepted, fun holds => ?_⟩
  obtain ⟨value, wellFormed, written, _⟩ := (holds _).mp accepted
  obtain rfl := tokens_unique written
  have even : (nibbles [49, 50, 32, 51]).length % 2 = 0 :=
    wellFormed.whole _ List.mem_cons_self
  exact absurd even (by decide)

end Values

end Idsm.EthProbe
