import Mathlib

/-! Texts made of newline-led words and newline-terminated lines. The laws say
when two such texts can be equal: a separator begins at its only newline, so two
occurrences never overlap. -/

set_option autoImplicit false

namespace Idsm.Foundation

/-- The UTF-8 bytes of a text. -/
def utf8 (text : String) : List UInt8 := text.toList.flatMap String.utf8EncodeChar

theorem utf8_append (left right : String) : utf8 (left ++ right) = utf8 left ++ utf8 right := by
  simp [utf8]

theorem utf8_injective {left right : String} (same : utf8 left = utf8 right) : left = right := by
  have encoded : ∀ text : String, text.toByteArray = (utf8 text).toByteArray := by
    intro text
    calc text.toByteArray = (String.ofList text.toList).toByteArray := by
          rw [String.ofList_toList]
      _ = (utf8 text).toByteArray := String.toByteArray_ofList
  rw [← String.toByteArray_inj, encoded, encoded, same]

def hexDigit (value : Nat) : Char := "0123456789abcdef".toList.getD (value % 16) '0'

theorem digit_bounds {symbol : Char} (digit : symbol.isDigit = true) :
    48 ≤ symbol.toNat ∧ symbol.toNat ≤ 57 := by
  simp only [Char.isDigit, Bool.and_eq_true, decide_eq_true_eq] at digit
  exact ⟨UInt32.le_iff_toNat_le.mp digit.1, UInt32.le_iff_toNat_le.mp digit.2⟩

variable {α : Type} {mark : α}

/-- A separator: one mark, then a word without that mark. -/
structure Separator (mark : α) where
  word : List α
  unmarked : mark ∉ word

namespace Separator

def text (separator : Separator mark) : List α := mark :: separator.word

private theorem beyond (first second : Separator mark) {between right right' : List α}
    (same : first.word ++ right = between ++ second.text ++ right') :
    ∃ middle, between = first.word ++ middle ∧ right = middle ++ second.text ++ right' := by
  rw [List.append_assoc, List.append_eq_append_iff] at same
  rcases same with ⟨middle, equal, rest⟩ | ⟨tail, equal, rest⟩
  · exact ⟨middle, equal, by simpa [List.append_assoc] using rest⟩
  · cases tail with
    | nil =>
        refine ⟨[], by simpa using equal.symm, ?_⟩
        simpa using rest.symm
    | cons head tail =>
        have marked : head = mark := by
          simpa [text] using (List.cons.inj rest).1.symm
        subst head
        exact absurd (equal ▸ by simp) first.unmarked

/-- Two separators in one text begin at the same place, or one lies wholly
after the other. -/
theorem cross (first second : Separator mark) {left right left' right' : List α}
    (same : left ++ first.text ++ right = left' ++ second.text ++ right') :
    (left = left' ∧ first.word ++ right = second.word ++ right') ∨
    (∃ between, left' = left ++ first.text ++ between ∧
      right = between ++ second.text ++ right') ∨
    (∃ between, left = left' ++ second.text ++ between ∧
      right' = between ++ first.text ++ right) := by
  rw [List.append_assoc, List.append_assoc, List.append_eq_append_iff] at same
  rcases same with ⟨offset, equal, rest⟩ | ⟨offset, equal, rest⟩
  · cases offset with
    | nil =>
        left
        exact ⟨by simpa using equal.symm, by simpa [text] using rest⟩
    | cons head offset =>
        right; left
        simp only [text, List.cons_append, List.cons.injEq] at rest
        obtain ⟨rfl, rest⟩ := rest
        obtain ⟨between, rfl, later⟩ :=
          beyond first second (by simpa [text, List.append_assoc] using rest)
        exact ⟨between, by simpa [text] using equal, later⟩
  · cases offset with
    | nil =>
        left
        exact ⟨by simpa using equal, by simpa [text] using rest.symm⟩
    | cons head offset =>
        right; right
        simp only [text, List.cons_append, List.cons.injEq] at rest
        obtain ⟨rfl, rest⟩ := rest
        obtain ⟨between, rfl, later⟩ :=
          beyond second first (by simpa [text, List.append_assoc] using rest)
        exact ⟨between, by simpa [text] using equal, later⟩

/-- A separator whose right-hand texts hold no mark splits a text one way only. -/
theorem last_unique (separator : Separator mark) {left right left' right' : List α}
    (clean : mark ∉ right) (clean' : mark ∉ right')
    (same : left ++ separator.text ++ right = left' ++ separator.text ++ right') :
    left = left' ∧ right = right' := by
  rcases separator.cross separator same with ⟨equal, rest⟩ | ⟨_, _, rest⟩ | ⟨_, _, rest⟩
  · exact ⟨equal, List.append_cancel_left rest⟩
  · exact absurd (rest ▸ by simp [text]) clean
  · exact absurd (rest ▸ by simp [text]) clean'

/-- So does a separator whose left-hand texts hold no mark. -/
theorem first_unique (separator : Separator mark) {left right left' right' : List α}
    (clean : mark ∉ left) (clean' : mark ∉ left')
    (same : left ++ separator.text ++ right = left' ++ separator.text ++ right') :
    left = left' ∧ right = right' := by
  rcases separator.cross separator same with ⟨equal, rest⟩ | ⟨_, later, _⟩ | ⟨_, earlier, _⟩
  · exact ⟨equal, List.append_cancel_left rest⟩
  · exact absurd (later ▸ by simp [text]) clean'
  · exact absurd (earlier ▸ by simp [text]) clean

/-- Two different separators, neither word beginning with the other, never
begin at the same place. -/
theorem cross_distinct (first second : Separator mark) {left right left' right' : List α}
    (apart : ¬ first.word <+: second.word) (apart' : ¬ second.word <+: first.word)
    (same : left ++ first.text ++ right = left' ++ second.text ++ right') :
    (∃ between, left' = left ++ first.text ++ between ∧
      right = between ++ second.text ++ right') ∨
    (∃ between, left = left' ++ second.text ++ between ∧
      right' = between ++ first.text ++ right) := by
  rcases first.cross second same with ⟨_, rest⟩ | later | earlier
  · rcases List.prefix_or_prefix_of_prefix ⟨right, rest⟩ ⟨right', rfl⟩ with shorter | shorter
    · exact absurd shorter apart
    · exact absurd shorter apart'
  · exact .inl later
  · exact .inr earlier

/-- A different separator cannot begin in the unmarked text after a separator:
it lies wholly before. -/
theorem before_of_unmarked (first second : Separator mark) {left right left' right' : List α}
    (apart : ¬ first.word <+: second.word) (apart' : ¬ second.word <+: first.word)
    (clean : mark ∉ right) (same : left ++ first.text ++ right = left' ++ second.text ++ right') :
    ∃ between, left = left' ++ second.text ++ between ∧ right' = between ++ first.text ++ right := by
  rcases first.cross_distinct second apart apart' same with ⟨_, _, rest⟩ | earlier
  · exact absurd (rest ▸ by simp [text]) clean
  · exact earlier

end Separator

/-- Lines, each closed by the mark. -/
def terminated (mark : α) (lines : List (List α)) : List α :=
  lines.flatMap (· ++ [mark])

@[simp] theorem terminated_nil : terminated mark ([] : List (List α)) = [] := rfl

@[simp] theorem terminated_cons (line : List α) (lines : List (List α)) :
    terminated mark (line :: lines) = line ++ mark :: terminated mark lines := by
  simp [terminated]

/-- The first mark of a text that starts with an unmarked line closes that line. -/
theorem first_mark {line left right right' : List α} (clean : mark ∉ line)
    (same : line ++ mark :: right = left ++ mark :: right') :
    (line = left ∧ right = right') ∨
    ∃ between, left = line ++ mark :: between ∧ right = between ++ mark :: right' := by
  rw [List.append_eq_append_iff] at same
  rcases same with ⟨offset, equal, rest⟩ | ⟨offset, equal, rest⟩
  · cases offset with
    | nil => exact .inl ⟨by simpa using equal.symm, by simpa using rest⟩
    | cons head offset =>
        simp only [List.cons_append, List.cons.injEq] at rest
        obtain ⟨rfl, rest⟩ := rest
        exact .inr ⟨offset, equal, rest⟩
  · cases offset with
    | nil => exact .inl ⟨by simpa using equal, by simpa using rest.symm⟩
    | cons head offset =>
        simp only [List.cons_append, List.cons.injEq] at rest
        exact absurd (equal ▸ by simp [rest.1]) clean

/-- Lines without the mark are recovered from their terminated text. -/
theorem terminated_injective {lines lines' : List (List α)}
    (clean : ∀ line ∈ lines, mark ∉ line) (clean' : ∀ line ∈ lines', mark ∉ line)
    (same : terminated mark lines = terminated mark lines') : lines = lines' := by
  induction lines generalizing lines' with
  | nil =>
      cases lines' with
      | nil => rfl
      | cons line lines' => simp at same
  | cons line lines ih =>
      cases lines' with
      | nil => simp at same
      | cons line' lines' =>
          simp only [terminated_cons] at same
          rcases first_mark (clean line (by simp)) same with ⟨rfl, rest⟩ | ⟨between, equal, _⟩
          · rw [ih (fun other member => clean other (by simp [member]))
              (fun other member => clean' other (by simp [member])) rest]
          · exact absurd (equal ▸ by simp) (clean' line' (by simp))

/-- What stands between two marks of a text is one of its lines. -/
theorem line_between_marks {lines : List (List α)} {last line front rest : List α}
    (clean : ∀ other ∈ lines, mark ∉ other) (cleanLast : mark ∉ last) (cleanLine : mark ∉ line)
    (same : terminated mark lines ++ last = front ++ mark :: (line ++ mark :: rest)) :
    ∃ before after, lines = before ++ line :: after ∧ rest = terminated mark after ++ last := by
  induction lines generalizing front with
  | nil =>
      rw [terminated_nil, List.nil_append] at same
      exact absurd (same ▸ by simp) cleanLast
  | cons first others ih =>
      have cleanOthers := fun other member => clean other (List.mem_cons_of_mem first member)
      rw [terminated_cons, List.append_assoc, List.cons_append] at same
      rcases first_mark (clean first (by simp)) same with ⟨_, behind⟩ | ⟨between, _, behind⟩
      · cases others with
        | nil =>
            rw [terminated_nil, List.nil_append] at behind
            exact absurd (behind ▸ by simp) cleanLast
        | cons second others =>
            rw [terminated_cons, List.append_assoc, List.cons_append] at behind
            rcases first_mark (cleanOthers second (by simp)) behind with
              ⟨rfl, later⟩ | ⟨between, equal, _⟩
            · exact ⟨[first], others, rfl, later.symm⟩
            · exact absurd (equal ▸ by simp) cleanLine
      · obtain ⟨before, after, rfl, later⟩ := ih cleanOthers behind
        exact ⟨first :: before, after, rfl, later⟩

/-- After a mark in terminated lines comes a line's first symbol, or the end. -/
theorem head_of_mark_terminated {lines : List (List α)} {before after : List α} {head : α}
    (clean : ∀ line ∈ lines, mark ∉ line) (distinct : head ≠ mark)
    (same : terminated mark lines = before ++ mark :: head :: after) :
    ∃ line ∈ lines, line.head? = some head := by
  induction lines generalizing before with
  | nil => simp at same
  | cons line lines ih =>
      rw [terminated_cons] at same
      rcases first_mark (clean line (by simp)) same with ⟨_, rest⟩ | ⟨between, _, rest⟩
      · cases lines with
        | nil => simp at rest
        | cons next lines =>
            refine ⟨next, by simp, ?_⟩
            cases next with
            | nil =>
                simp only [terminated_cons, List.nil_append, List.cons.injEq] at rest
                exact absurd rest.1.symm distinct
            | cons symbol next =>
                simp only [terminated_cons, List.cons_append, List.cons.injEq] at rest
                simp [rest.1]
      · obtain ⟨found, member, first⟩ :=
          ih (fun other member => clean other (by simp [member])) rest
        exact ⟨found, by simp [member], first⟩

/-- A text that closes its lines tells its last line, whatever stands in front. -/
theorem last_line_unique {front front' last last' : List α} {lines lines' : List (List α)}
    (clean : mark ∉ last) (clean' : mark ∉ last')
    (same : front ++ mark :: terminated mark (lines ++ [last]) =
      front' ++ mark :: terminated mark (lines' ++ [last'])) : last = last' := by
  have closed : ∀ (front : List α) (lines : List (List α)),
      ∃ before, front ++ mark :: terminated mark lines = before ++ [mark] := by
    intro front lines
    induction lines generalizing front with
    | nil => exact ⟨front, rfl⟩
    | cons line lines ih =>
        obtain ⟨before, equal⟩ := ih (front ++ mark :: line)
        refine ⟨before, ?_⟩
        rw [← equal]
        simp
  obtain ⟨before, equal⟩ := closed front lines
  obtain ⟨before', equal'⟩ := closed front' lines'
  have split : ∀ (front : List α) (lines : List (List α)) (last : List α),
      front ++ mark :: terminated mark (lines ++ [last]) =
        front ++ mark :: terminated mark lines ++ (last ++ [mark]) := by
    intro front lines last
    simp [terminated]
  rw [split, split, equal, equal', ← List.append_assoc, ← List.append_assoc,
    List.append_cancel_right_eq] at same
  exact (Separator.last_unique ⟨[], by simp⟩ clean clean' same).2

end Idsm.Foundation
