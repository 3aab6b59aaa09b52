import Idsm.Json.Dump

/-! When two dumped texts can be equal: pieces that end at the same place wherever
they stand are read off one after another. -/

set_option autoImplicit false

namespace Idsm.Json

open Idsm.Foundation

/-- In one text at one place, the two can only stand as the same piece. -/
def Aligned (first second : String) : Prop :=
  ∀ rest rest' : List Char, first.toList ++ rest = second.toList ++ rest' → first = second

theorem Aligned.refl (text : String) : Aligned text text := fun _ _ _ => rfl

theorem Aligned.cancel {first second : String} (aligned : Aligned first second)
    {rest rest' : List Char} (same : first.toList ++ rest = second.toList ++ rest') :
    first = second ∧ rest = rest' := by
  obtain rfl := aligned rest rest' same
  exact ⟨rfl, List.append_cancel_left same⟩

theorem Aligned.append {first second : String} (before : String) (aligned : Aligned first second) :
    Aligned (before ++ first) (before ++ second) := by
  intro rest rest' same
  rw [String.toList_append, String.toList_append, List.append_assoc, List.append_assoc] at same
  rw [aligned rest rest' (List.append_cancel_left same)]

/-- A character that needs no hexadecimal escape. -/
def Plain (c : Char) : Prop := 0x20 ≤ c.toNat

private theorem escaped_quote : escaped '"' = ['\\', '"'] := by decide

private theorem escaped_backslash : escaped '\\' = ['\\', '\\'] := by decide

theorem escaped_of_plain {c : Char} (plain : Plain c) (notQuote : c ≠ '"') (notSlash : c ≠ '\\') :
    escaped c = [c] := by
  have apart : ∀ other : Char, c ≠ other → c.toNat ≠ other.toNat := fun other different same =>
    different (Char.ext (UInt32.toNat_inj.mp same))
  have quoteCode : c.toNat ≠ 0x22 := apart '"' notQuote
  have slashCode : c.toNat ≠ 0x5C := apart '\\' notSlash
  have low : 0x20 ≤ c.toNat := plain
  simp only [escaped]
  rw [if_neg (by omega), if_neg (by omega), if_neg (by omega), if_neg (by omega), if_neg (by omega),
    if_neg quoteCode, if_neg slashCode, if_neg (by omega)]

private theorem escaped_head {c : Char} (plain : Plain c) (rest rest' : List Char) :
    escaped c ++ rest ≠ '"' :: rest' := by
  by_cases isQuote : c = '"'
  · simp [isQuote, escaped_quote]
  by_cases isSlash : c = '\\'
  · simp [isSlash, escaped_backslash]
  · simp [escaped_of_plain plain isQuote isSlash, isQuote]

private theorem escaped_cancel {c d : Char} (plain : Plain c) (plain' : Plain d)
    {rest rest' : List Char} (same : escaped c ++ rest = escaped d ++ rest') :
    c = d ∧ rest = rest' := by
  by_cases isQuote : c = '"'
  · subst isQuote
    by_cases isQuote' : d = '"'
    · subst isQuote'
      exact ⟨rfl, List.append_cancel_left same⟩
    by_cases isSlash' : d = '\\'
    · simp [isSlash', escaped_quote, escaped_backslash] at same
    · simp only [escaped_quote, escaped_of_plain plain' isQuote' isSlash', List.cons_append,
        List.nil_append, List.cons.injEq] at same
      exact absurd same.1.symm isSlash'
  by_cases isSlash : c = '\\'
  · subst isSlash
    by_cases isQuote' : d = '"'
    · simp [isQuote', escaped_quote, escaped_backslash] at same
    by_cases isSlash' : d = '\\'
    · subst isSlash'
      exact ⟨rfl, List.append_cancel_left same⟩
    · simp only [escaped_backslash, escaped_of_plain plain' isQuote' isSlash', List.cons_append,
        List.nil_append, List.cons.injEq] at same
      exact absurd same.1.symm isSlash'
  rw [escaped_of_plain plain isQuote isSlash] at same
  by_cases isQuote' : d = '"'
  · simp only [isQuote', escaped_quote, List.cons_append, List.nil_append, List.cons.injEq] at same
    exact absurd same.1 isSlash
  by_cases isSlash' : d = '\\'
  · simp only [isSlash', escaped_backslash, List.cons_append, List.nil_append,
      List.cons.injEq] at same
    exact absurd same.1 isSlash
  · simpa [escaped_of_plain plain' isQuote' isSlash'] using same

private theorem literal_cancel {text text' : List Char} (plain : ∀ c ∈ text, Plain c)
    (plain' : ∀ c ∈ text', Plain c) {rest rest' : List Char}
    (same : text.flatMap escaped ++ '"' :: rest = text'.flatMap escaped ++ '"' :: rest') :
    text = text' := by
  induction text generalizing text' with
  | nil =>
      cases text' with
      | nil => rfl
      | cons d text' =>
          rw [List.flatMap_cons, List.append_assoc] at same
          exact absurd same.symm (escaped_head (plain' d (by simp)) _ _)
  | cons c text ih =>
      rw [List.flatMap_cons, List.append_assoc] at same
      cases text' with
      | nil => exact absurd same (escaped_head (plain c (by simp)) _ _)
      | cons d text' =>
          rw [List.flatMap_cons, List.append_assoc] at same
          obtain ⟨rfl, later⟩ := escaped_cancel (plain c (by simp)) (plain' d (by simp)) same
          rw [ih (fun other member => plain other (by simp [member]))
            (fun other member => plain' other (by simp [member])) later]

theorem toList_quote (text : String) :
    (quote text).toList = '"' :: (text.toList.flatMap escaped ++ ['"']) := by
  have mark : "\"".toList = ['"'] := by decide
  simp [quote, String.toList_append, mark]

/-- A literal ends at its own closing quote. -/
theorem quote_cancel {text text' : String} (plain : ∀ c ∈ text.toList, Plain c)
    (plain' : ∀ c ∈ text'.toList, Plain c) {rest rest' : List Char}
    (same : (quote text).toList ++ rest = (quote text').toList ++ rest') : text = text' := by
  simp only [toList_quote, List.cons_append, List.append_assoc, List.nil_append,
    List.cons.injEq, true_and] at same
  exact String.toList_inj.mp (literal_cancel plain plain' same)

theorem aligned_quote {text text' : String} (plain : ∀ c ∈ text.toList, Plain c)
    (plain' : ∀ c ∈ text'.toList, Plain c) : Aligned (quote text) (quote text') := by
  intro rest rest' same
  rw [quote_cancel plain plain' same]

section Bracketed

variable {printer : Printer} {opening closing : String} {level : Nat}

theorem toList_bracketed (piece : String) (pieces : List String) :
    (bracketed printer opening closing level (piece :: pieces)).toList =
      opening.toList ++ (breakText printer (level + 1)).toList ++ piece.toList ++
        pieces.flatMap (fun later => ',' :: (breakText printer (level + 1)).toList ++ later.toList) ++
        ((breakText printer level).toList ++ closing.toList) := by
  have comma : ",".toList = [','] := by decide
  have folded : ∀ start : String,
      (pieces.foldl (fun out later => out ++ "," ++ breakText printer (level + 1) ++ later)
        start).toList = start.toList ++ pieces.flatMap
          (fun later => ',' :: (breakText printer (level + 1)).toList ++ later.toList) := by
    induction pieces with
    | nil => simp
    | cons later rest ih => simp [ih, String.toList_append, comma]
  simp [bracketed, String.toList_append, folded]

private theorem pieces_cancel {pieces pieces' : List String}
    (aligned : List.Forall₂ Aligned pieces pieces') (glue tail : List Char)
    (same : pieces.flatMap (fun piece => ',' :: glue ++ piece.toList) ++ tail =
      pieces'.flatMap (fun piece => ',' :: glue ++ piece.toList) ++ tail) : pieces = pieces' := by
  induction aligned with
  | nil => rfl
  | cons first _ ih =>
      simp only [List.flatMap_cons, List.append_assoc, List.cons_append, List.cons.injEq,
        true_and] at same
      obtain ⟨rfl, later⟩ := first.cancel (List.append_cancel_left same)
      rw [ih (by simpa only [List.cons_append] using later)]

/-- Pieces aligned one by one are read back from their bracketed text. -/
theorem bracketed_cancel {pieces pieces' : List String}
    (aligned : List.Forall₂ Aligned pieces pieces')
    (same : bracketed printer opening closing level pieces =
      bracketed printer opening closing level pieces') : pieces = pieces' := by
  cases aligned with
  | nil => rfl
  | cons first others =>
      have texts := congrArg String.toList same
      rw [toList_bracketed, toList_bracketed] at texts
      simp only [List.append_assoc] at texts
      obtain ⟨rfl, later⟩ :=
        first.cancel (List.append_cancel_left (List.append_cancel_left texts))
      rw [pieces_cancel others _ _ later]

end Bracketed

private theorem members_of_texts {printer : Printer} {members members' : List (String × String)}
    (named : List.Forall₂ (fun member member' => member.1 = member'.1) members members')
    (texts : members.map (memberText printer) = members'.map (memberText printer)) :
    members = members' := by
  induction named with
  | nil => rfl
  | cons first _ ih =>
      rename_i member member' _ _ _
      rw [List.map_cons, List.map_cons, List.cons.injEq, memberText, memberText, first] at texts
      have values := congrArg String.toList texts.1
      simp only [String.toList_append, List.append_cancel_left_eq] at values
      rw [ih texts.2, Prod.ext first (String.toList_inj.mp values)]

/-- Objects with the same names and aligned values are read back from their text. -/
theorem objectText_cancel {printer : Printer} {level : Nat}
    {members members' : OrderedMap String String}
    (keys : ∀ key, (members.find? key).isSome = (members'.find? key).isSome)
    (values : ∀ key value value', members.find? key = some value →
      members'.find? key = some value' → Aligned value value')
    (same : objectText printer level members = objectText printer level members') :
    members = members' := by
  have paired : List.Forall₂ (fun member member' => member.1 = member'.1 ∧
      Aligned member.2 member'.2) members.entries members'.entries :=
    OrderedMap.forall₂_entries members members' keys fun key value value' found found' =>
      ⟨rfl, values key value value' found found'⟩
  have aligned : List.Forall₂ Aligned (members.entries.map (memberText printer))
      (members'.entries.map (memberText printer)) := by
    rw [List.forall₂_map_left_iff, List.forall₂_map_right_iff]
    refine paired.imp fun member member' ⟨named, valued⟩ => ?_
    rw [memberText, memberText, named]
    exact valued.append _
  have entries := members_of_texts (paired.imp fun _ _ both => both.1) (bracketed_cancel aligned same)
  exact OrderedMap.ext fun key => by rw [OrderedMap.find?, OrderedMap.find?, entries]

section Compact

variable {printer : Printer} {opening closing : String} {level : Nat}

/-- The pieces after a start, a comma before every piece but the first. -/
def commaJoined (start : String) : List String → String
  | [] => start
  | piece :: pieces => pieces.foldl (fun out later => out ++ "," ++ later) (start ++ piece)

theorem bracketed_compact (compact : printer.step = none) (pieces : List String) :
    bracketed printer opening closing level pieces = commaJoined opening pieces ++ closing := by
  have unbroken : ∀ level, breakText printer level = "" := by
    intro level
    rw [breakText, compact]
  cases pieces with
  | nil => rfl
  | cons piece pieces => simp only [bracketed, unbroken, String.append_empty, commaJoined]

theorem mem_commaJoined {start piece : String} {pieces : List String} {c : Char}
    (member : piece ∈ pieces) (inside : c ∈ piece.toList) :
    c ∈ (commaJoined start pieces).toList := by
  have folded : ∀ (pieces : List String) (start : String),
      (c ∈ start.toList ∨ ∃ piece ∈ pieces, c ∈ piece.toList) →
      c ∈ (pieces.foldl (fun out later => out ++ "," ++ later) start).toList := by
    intro pieces
    induction pieces with
    | nil =>
        rintro start (here | ⟨_, none, _⟩)
        · exact here
        · cases none
    | cons later rest ih =>
        rintro start (here | ⟨piece, listed, there⟩)
        · exact ih _ (.inl (by simp [String.toList_append, here]))
        · rcases List.mem_cons.mp listed with rfl | listed
          · exact ih _ (.inl (by simp [String.toList_append, there]))
          · exact ih _ (.inr ⟨piece, listed, there⟩)
  cases pieces with
  | nil => cases member
  | cons first rest =>
      rw [commaJoined]
      rcases List.mem_cons.mp member with rfl | listed
      · exact folded rest _ (.inl (by simp [String.toList_append, inside]))
      · exact folded rest _ (.inr ⟨piece, listed, inside⟩)

end Compact

end Idsm.Json
