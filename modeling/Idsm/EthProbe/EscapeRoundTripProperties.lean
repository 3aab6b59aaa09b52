import Idsm.EthProbe.ContentGrammarProperties
import Idsm.EthProbe.RuleLine

/-! Content values that are written with escapes, in a line of a rules file: the comment, the
options and the value are each read with a quoting of their own. -/

set_option autoImplicit false

namespace Idsm.EthProbe

open Idsm.Foundation

section Walk

variable {quoted after : Bool} {cur front rest text : List UInt8}

/-- The quoting behind a text that has semicolons and hashes inside quotes only. -/
def walk (quoted : Bool) : List UInt8 → Option Bool
  | [] => some quoted
  | c :: rest =>
      if (c = 59 ∨ c = 35) ∧ quoted = false then none else walk (toggled quoted c) rest

theorem walk_append : walk quoted (front ++ rest) = (walk quoted front).bind (walk · rest) := by
  induction front generalizing quoted with
  | nil => rfl
  | cons c front ih =>
      rw [List.cons_append, walk, walk]
      split
      · rfl
      · exact ih

/-- A mark that is met outside of quotes is no quote. -/
theorem toggled_mark {c : UInt8} (mark : c = 59 ∨ c = 35) : toggled quoted c = quoted := by
  rcases mark with rfl | rfl
  · rfl
  · rfl

theorem stripComment_walk (walked : walk quoted front = some after) :
    stripComment quoted (front ++ rest) = front ++ stripComment after rest := by
  induction front generalizing quoted with
  | nil =>
      obtain rfl := Option.some.inj walked
      rfl
  | cons c front ih =>
      unfold walk at walked
      split at walked
      next => cases walked
      next plain =>
        rw [List.cons_append, stripComment, if_neg, ih walked, List.cons_append]
        rintro ⟨hash, outside⟩
        rw [toggled_mark (.inr hash)] at outside
        exact plain ⟨.inr hash, outside⟩

theorem splitOptions_walk (walked : walk quoted front = some after) :
    splitOptions quoted cur (front ++ rest) = splitOptions after (cur ++ front) rest := by
  induction front generalizing quoted cur with
  | nil =>
      obtain rfl := Option.some.inj walked
      rw [List.nil_append, List.append_nil]
  | cons c front ih =>
      unfold walk at walked
      split at walked
      next => cases walked
      next plain =>
        rw [List.cons_append, splitOptions, if_neg, ih walked, List.append_assoc]
        · rfl
        · rintro ⟨semicolon, outside⟩
          rw [toggled_mark (.inl semicolon)] at outside
          exact plain ⟨.inl semicolon, outside⟩

/-- The first mark outside of quotes. -/
theorem walk_none (walked : walk quoted text = none) :
    ∃ front c rest, text = front ++ c :: rest ∧ walk quoted front = some false ∧
      (c = 59 ∨ c = 35) := by
  induction text generalizing quoted with
  | nil => cases walked
  | cons c text ih =>
      unfold walk at walked
      split at walked
      next met =>
        obtain ⟨mark, rfl⟩ := met
        exact ⟨[], c, text, rfl, rfl, mark⟩
      next plain =>
        obtain ⟨front, other, rest, rfl, walked, mark⟩ := ih walked
        refine ⟨c :: front, other, rest, rfl, ?_, mark⟩
        rw [walk, if_neg plain, walked]

theorem walk_of_append (walked : walk quoted (front ++ rest) = some after) :
    ∃ between, walk quoted front = some between := by
  rw [walk_append] at walked
  cases found : walk quoted front with
  | none =>
      rw [found] at walked
      cases walked
  | some between => exact ⟨between, rfl⟩

end Walk

section Escapes

/-- The escapes that are written: of a backslash, a quote or a bar. -/
def ContentToken.Escaped : ContentToken → Prop
  | .literal c _ => c ≠ 34
  | .escape c => c = 92 ∨ c = 34 ∨ c = 124
  | .block inner _ => (nibbles inner).length % 2 = 0

/-- The tokens write the bytes on one line. -/
structure Writes (tokens : List ContentToken) (bytes : List UInt8) : Prop where
  escaped : ∀ token ∈ tokens, token.Escaped
  denotes : tokens.flatMap ContentToken.bytes = bytes
  oneLine : 10 ∉ tokens.flatMap ContentToken.text

variable {tokens : List ContentToken} {pattern : Pattern} {inner rest : List UInt8}

private theorem quote_bits : ∀ bits : BitVec 8,
    blockChar (UInt8.ofBitVec bits) = true → UInt8.ofBitVec bits ≠ 34 := by
  decide

/-- A mark behind a text that has none of it. -/
theorem split_past {mark : UInt8} {text more : List UInt8} (absent : mark ∉ text)
    (split : text ++ more = inner ++ mark :: rest) :
    ∃ front, inner = text ++ front ∧ more = front ++ mark :: rest := by
  induction text generalizing inner with
  | nil => exact ⟨inner, rfl, split⟩
  | cons c text ih =>
      obtain ⟨other, absent⟩ := List.ne_and_not_mem_of_not_mem_cons absent
      cases inner with
      | nil => exact absurd (List.cons.inj split).1.symm other
      | cons first inner =>
          obtain ⟨same, onward⟩ := List.cons.inj split
          obtain ⟨front, rfl, later⟩ := ih absent onward
          exact ⟨front, by rw [same]; rfl, later⟩

theorem token_quote {token : ContentToken} {more : List UInt8} (escaped : token.Escaped)
    (split : token.text ++ more = inner ++ 34 :: rest) :
    (token = .escape 34 ∧ inner = [92]) ∨
      ∃ front, inner = token.text ++ front ∧ more = front ++ 34 :: rest := by
  cases token with
  | literal c plain =>
      exact .inr (split_past (fun member => escaped (List.mem_singleton.mp member).symm) split)
  | escape c =>
      cases inner with
      | nil => cases split
      | cons first inner =>
          obtain ⟨same, onward⟩ := List.cons.inj split
          subst same
          cases inner with
          | nil =>
              obtain ⟨same, _⟩ := List.cons.inj onward
              exact .inl ⟨by rw [same], rfl⟩
          | cons second inner =>
              obtain ⟨same, later⟩ := List.cons.inj onward
              exact .inr ⟨inner, by rw [← same]; rfl, later⟩
  | block inner digits =>
      refine .inr (split_past ?_ split)
      simp only [ContentToken.text, List.mem_cons, List.mem_append, List.not_mem_nil, or_false,
        not_or]
      refine ⟨by decide, fun member => ?_, by decide⟩
      exact quote_bits (34 : UInt8).toBitVec (List.all_eq_true.mp digits 34 member) rfl

/-- A quote in the text stands behind the backslash of its escape. -/
theorem quote_escaped (escaped : ∀ token ∈ tokens, token.Escaped)
    (split : tokens.flatMap ContentToken.text = inner ++ 34 :: rest) :
    ∃ before behind, tokens = before ++ .escape 34 :: behind ∧
      inner = before.flatMap ContentToken.text ++ [92] := by
  induction tokens generalizing inner with
  | nil => simp at split
  | cons token tokens ih =>
      obtain ⟨here, others⟩ := List.forall_mem_cons.mp escaped
      rw [List.flatMap_cons] at split
      rcases token_quote here split with ⟨rfl, rfl⟩ | ⟨front, rfl, onward⟩
      · exact ⟨[], tokens, rfl, rfl⟩
      · obtain ⟨before, behind, rfl, rfl⟩ := ih others onward
        exact ⟨token :: before, behind, rfl, by rw [List.flatMap_cons, List.append_assoc]⟩

/-- Blanks are trimmed behind the last character that is none. -/
theorem rdropWhile_past {c : UInt8} (plain : isSpace c = false) :
    (inner ++ c :: rest).rdropWhile isSpace = inner ++ c :: rest.rdropWhile isSpace := by
  induction rest using List.reverseRecOn with
  | nil => exact List.rdropWhile_concat_neg _ _ _ (by simp [plain])
  | append_singleton rest last ih =>
      rw [← List.cons_append, ← List.append_assoc, List.rdropWhile_concat, List.rdropWhile_concat,
        ih]
      split
      · rfl
      · rw [List.append_assoc]
        rfl

theorem trim_quote : trim (34 :: inner) = 34 :: inner.rdropWhile isSpace :=
  @rdropWhile_past [] _ _ rfl

/-- A value that breaks off inside the text is not read as the bytes. -/
theorem parse_broken {front : List UInt8} {c : UInt8}
    (escaped : ∀ token ∈ tokens, token.Escaped)
    (split : tokens.flatMap ContentToken.text = front ++ c :: rest)
    (parsed : parseContentValue (trim (34 :: front)) = .ok pattern) :
    pattern.val ≠ tokens.flatMap ContentToken.bytes := by
  obtain ⟨value, written, denoted⟩ := parseContentValue_eq_ok.1 parsed
  rw [trim_quote, ContentText.text, List.cons.injEq] at written
  have blanks := @List.rdropWhile_append_rtakeWhile _ isSpace front
  rw [← written.2, List.append_assoc] at blanks
  rw [← blanks, List.append_assoc] at split
  obtain ⟨before, behind, rfl, same⟩ := quote_escaped escaped split
  have broken : value = ⟨before, true⟩ := by
    refine tokens_unique ?_
    rw [ContentText.text, same]
    rfl
  rw [← denoted, broken, List.flatMap_append, List.flatMap_cons]
  intro equal
  cases List.append_cancel_left equal

/-- Nor is a value that runs on behind the closing quote. -/
theorem parse_overrun {more : List UInt8} (onward : more ≠ [])
    (parsed : parseContentValue
      (34 :: (tokens.flatMap ContentToken.text ++ 34 :: more)) = .ok pattern) :
    pattern.val ≠ tokens.flatMap ContentToken.bytes := by
  obtain ⟨value, written, denoted⟩ := parseContentValue_eq_ok.1 parsed
  obtain ⟨more, last, rfl⟩ := List.eq_nil_or_concat more |>.resolve_left onward
  rw [ContentText.text, List.cons.injEq, List.concat_eq_append, ← List.cons_append,
    ← List.append_assoc] at written
  obtain ⟨inner, _⟩ := List.append_inj' written.2 rfl
  have read : contentLoop ⟨false, none, []⟩
      (value.tokens.flatMap ContentToken.text ++ value.tail) = .ok ⟨false, none, [] ++ value.bytes⟩ :=
    contentLoop_value value
  rw [inner, contentLoop_tokens, contentLoop_literal ⟨by decide, by decide⟩] at read
  obtain ⟨rest, rfl⟩ := tokens_of_contentLoop read rfl
  rw [contentLoop_value] at read
  have longer := congrArg (fun reading => reading.out) (Except.ok.inj read)
  dsimp only at longer
  rw [List.nil_append, List.nil_append, denoted, List.append_assoc] at longer
  intro equal
  rw [equal] at longer
  simp at longer

end Escapes

section Options

variable {draft result other : RuleDraft} {opts more : List (List UInt8)}
  {opt key value name : List UInt8}

def contentKey : List UInt8 := [99, 111, 110, 116, 101, 110, 116]

/-- The option gives the rule a content. -/
def bearsContent (opt : List UInt8) : Bool :=
  match cutAt 58 opt with
  | (key, some _) => decide (trim key = contentKey)
  | (_, none) => false

def RuleDraft.patterns (draft : RuleDraft) : List Pattern :=
  draft.rule.contents.map ContentMatch.pattern

theorem lookup_content : optionKeys.lookup name = some .content ↔ name = contentKey := by
  have only : ∀ entry ∈ optionKeys, entry.2 = .content → entry.1 = contentKey := by decide
  constructor
  · intro found
    obtain ⟨before, behind, split, _⟩ := List.lookup_eq_some_iff.mp found
    exact only (name, .content) (by rw [split]; exact List.mem_append_right _ List.mem_cons_self) rfl
  · rintro rfl
    rfl

/-- A modifier changes no pattern. -/
theorem changeLast_patterns {text : String} {change : ContentMatch → ContentMatch}
    (changed : draft.changeLast text change = .ok result)
    (keeps : ∀ c, (change c).pattern = c.pattern) : result.patterns = draft.patterns := by
  unfold RuleDraft.changeLast at changed
  split at changed
  next => cases changed
  next =>
    obtain rfl := Except.ok.inj changed
    unfold RuleDraft.patterns
    refine List.ext_getElem? fun index => ?_
    rw [List.getElem?_map, List.getElem?_map, List.getElem?_modify]
    cases draft.rule.contents[index]? with
    | none => rfl
    | some c =>
        dsimp only [Option.map_some]
        split
        · exact congrArg some (keeps c)
        · rfl

theorem changeLastBy_patterns {missing bad : String} {change : UInt32 → ContentMatch → ContentMatch}
    (changed : draft.changeLastBy missing bad value change = .ok result)
    (keeps : ∀ v c, (change v c).pattern = c.pattern) :
    result.patterns = draft.patterns := by
  unfold RuleDraft.changeLastBy at changed
  split at changed
  next => cases changed
  next =>
    cases number : parseU32 value with
    | none =>
        rw [number] at changed
        cases changed
    | some v =>
        rw [number] at changed
        exact changeLast_patterns changed (keeps v)

/-- What an option adds to the patterns. -/
theorem readOption_patterns (read : readOption draft key value = .ok result) :
    (key = contentKey ∧ ∃ pattern, parseContentValue value = .ok pattern ∧
        result.patterns = draft.patterns ++ [pattern]) ∨
      (key ≠ contentKey ∧ result.patterns = draft.patterns) := by
  by_cases content : key = contentKey
  · refine .inl ⟨content, ?_⟩
    unfold readOption at read
    rw [lookup_content.2 content] at read
    cases parsed : parseContentValue value with
    | error err =>
        rw [parsed] at read
        cases read
    | ok pattern =>
        rw [parsed] at read
        obtain rfl := Except.ok.inj read
        exact ⟨pattern, rfl, List.map_append⟩
  · refine .inr ⟨content, ?_⟩
    unfold readOption at read
    cases found : optionKeys.lookup key with
    | none =>
        rw [found] at read
        cases read
    | some kind =>
        rw [found] at read
        cases kind with
        | content => exact absurd (lookup_content.1 found) content
        | msg =>
            obtain rfl := Except.ok.inj read
            rfl
        | sid =>
            cases number : parseU32 value with
            | none =>
                rw [number] at read
                cases read
            | some sid =>
                rw [number] at read
                obtain rfl := Except.ok.inj read
                rfl
        | rev =>
            cases number : parseU32 value with
            | none =>
                rw [number] at read
                cases read
            | some rev =>
                rw [number] at read
                obtain rfl := Except.ok.inj read
                rfl
        | nocase =>
            dsimp only at read
            exact changeLast_patterns read fun _ => rfl
        | offset =>
            dsimp only at read
            exact changeLastBy_patterns read fun _ _ => rfl
        | depth =>
            dsimp only at read
            exact changeLastBy_patterns read fun _ _ => rfl
        | distance =>
            dsimp only at read
            exact changeLastBy_patterns read fun _ _ => rfl
        | within =>
            dsimp only at read
            exact changeLastBy_patterns read fun _ _ => rfl
        | buffer buffer =>
            obtain rfl := Except.ok.inj read
            rfl
        | pcre =>
            obtain rfl := Except.ok.inj read
            rfl
        | ignored =>
            obtain rfl := Except.ok.inj read
            rfl

/-- Two rules as far as their later options tell them apart. -/
structure Alike (draft other : RuleDraft) : Prop where
  contents : other.rule.contents.length = draft.rule.contents.length
  sid : other.rule.sid = draft.rule.sid
  pcre : other.rule.pcrePatterns = draft.rule.pcrePatterns

theorem Alike.nonempty (alike : Alike draft other) :
    other.rule.contents = [] ↔ draft.rule.contents = [] := by
  rw [← List.length_eq_zero_iff, alike.contents, List.length_eq_zero_iff]

theorem Alike.changeLast {text : String} {change : ContentMatch → ContentMatch}
    (alike : Alike draft other) (changed : draft.changeLast text change = .ok result) :
    ∃ changed, other.changeLast text change = .ok changed ∧ Alike result changed := by
  unfold RuleDraft.changeLast at changed ⊢
  split at changed
  next => cases changed
  next some =>
    obtain rfl := Except.ok.inj changed
    rw [if_neg (mt alike.nonempty.1 some)]
    exact ⟨_, rfl, by simp [alike.contents], alike.sid, alike.pcre⟩

theorem Alike.changeLastBy {missing bad : String} {change : UInt32 → ContentMatch → ContentMatch}
    (alike : Alike draft other)
    (changed : draft.changeLastBy missing bad value change = .ok result) :
    ∃ changed, other.changeLastBy missing bad value change = .ok changed ∧ Alike result changed := by
  unfold RuleDraft.changeLastBy at changed ⊢
  split at changed
  next => cases changed
  next some =>
    rw [if_neg (mt alike.nonempty.1 some)]
    cases number : parseU32 value with
    | none =>
        rw [number] at changed
        cases changed
    | some v =>
        rw [number] at changed
        exact alike.changeLast changed

theorem Alike.readOption (alike : Alike draft other)
    (read : readOption draft key value = .ok result) :
    ∃ changed, readOption other key value = .ok changed ∧ Alike result changed := by
  unfold EthProbe.readOption at read ⊢
  cases found : optionKeys.lookup key with
  | none =>
      rw [found] at read
      cases read
  | some kind =>
      rw [found] at read
      cases kind with
      | content =>
          cases parsed : parseContentValue value with
          | error err =>
              rw [parsed] at read
              cases read
          | ok pattern =>
              rw [parsed] at read
              obtain rfl := Except.ok.inj read
              exact ⟨_, rfl, by simp [RuleDraft.addContent, alike.contents], alike.sid, alike.pcre⟩
      | msg =>
          obtain rfl := Except.ok.inj read
          exact ⟨_, rfl, alike.contents, alike.sid, alike.pcre⟩
      | sid =>
          cases number : parseU32 value with
          | none =>
              rw [number] at read
              cases read
          | some sid =>
              rw [number] at read
              obtain rfl := Except.ok.inj read
              exact ⟨_, rfl, alike.contents, rfl, alike.pcre⟩
      | rev =>
          cases number : parseU32 value with
          | none =>
              rw [number] at read
              cases read
          | some rev =>
              rw [number] at read
              obtain rfl := Except.ok.inj read
              exact ⟨_, rfl, alike.contents, alike.sid, alike.pcre⟩
      | nocase =>
          dsimp only at read
          exact alike.changeLast read
      | offset =>
          dsimp only at read
          exact alike.changeLastBy read
      | depth =>
          dsimp only at read
          exact alike.changeLastBy read
      | distance =>
          dsimp only at read
          exact alike.changeLastBy read
      | within =>
          dsimp only at read
          exact alike.changeLastBy read
      | buffer buffer =>
          obtain rfl := Except.ok.inj read
          exact ⟨_, rfl, alike.contents, alike.sid, alike.pcre⟩
      | pcre =>
          obtain rfl := Except.ok.inj read
          exact ⟨_, rfl, alike.contents, alike.sid, by rw [alike.pcre]⟩
      | ignored =>
          obtain rfl := Except.ok.inj read
          exact ⟨_, rfl, alike⟩

theorem readOptions_append : readOptions draft (opts ++ more) =
    match readOptions draft opts with
    | .error err => .error err
    | .ok between => readOptions between more := by
  induction opts generalizing draft with
  | nil => rfl
  | cons opt opts ih =>
      rw [List.cons_append, readOptions, readOptions]
      split
      · exact ih
      · cases EthProbe.readOption draft (optionParts opt).1 (optionParts opt).2 with
        | error err => rfl
        | ok between => exact ih

theorem readOptions_prefix (read : readOptions draft opts = .ok result) :
    draft.patterns <+: result.patterns := by
  induction opts generalizing draft with
  | nil =>
      obtain rfl := Except.ok.inj read
      exact List.prefix_rfl
  | cons opt opts ih =>
      rw [readOptions] at read
      split at read
      next => exact ih read
      next =>
        cases step : readOption draft (optionParts opt).1 (optionParts opt).2 with
        | error err =>
            rw [step] at read
            cases read
        | ok between =>
            rw [step] at read
            refine List.IsPrefix.trans ?_ (ih read)
            rcases readOption_patterns step with ⟨_, pattern, _, same⟩ | ⟨_, same⟩
            · rw [same]
              exact List.prefix_append _ _
            · rw [same]

theorem Alike.readOptions (alike : Alike draft other)
    (read : readOptions draft opts = .ok result) :
    ∃ changed, EthProbe.readOptions other opts = .ok changed ∧ Alike result changed := by
  induction opts generalizing draft other with
  | nil =>
      obtain rfl := Except.ok.inj read
      exact ⟨other, rfl, alike⟩
  | cons opt opts ih =>
      rw [EthProbe.readOptions] at read ⊢
      split at read
      next empty =>
        rw [if_pos empty]
        exact ih alike read
      next filled =>
        rw [if_neg filled]
        cases step : EthProbe.readOption draft (optionParts opt).1 (optionParts opt).2 with
        | error err =>
            rw [step] at read
            cases read
        | ok between =>
            rw [step] at read
            obtain ⟨changed, same, later⟩ := alike.readOption step
            rw [same]
            exact ih later read

/-- An option without a colon gives no content. -/
theorem readOption_bears
    (read : readOption draft (optionParts opt).1 (optionParts opt).2 = .ok result) :
    result.patterns.length = draft.patterns.length + if bearsContent opt then 1 else 0 := by
  unfold bearsContent
  rcases readOption_patterns read with ⟨content, pattern, parsed, same⟩ | ⟨otherKey, same⟩
  · unfold optionParts at content parsed
    cases cut : cutAt 58 opt with
    | mk key behind =>
        rw [cut] at content parsed
        cases behind with
        | none =>
            have refused : parseContentValue [] = .error "content value must be quoted" := rfl
            rw [refused] at parsed
            cases parsed
        | some value =>
            rw [same, List.length_append]
            dsimp only at content ⊢
            rw [if_pos (decide_eq_true content)]
            rfl
  · unfold optionParts at otherKey
    cases cut : cutAt 58 opt with
    | mk key behind =>
        rw [cut] at otherKey
        cases behind with
        | none => rw [same, if_neg Bool.false_ne_true, Nat.add_zero]
        | some value =>
            dsimp only at otherKey ⊢
            rw [same, if_neg (by simpa using otherKey), Nat.add_zero]

theorem readOptions_count (read : readOptions draft opts = .ok result) :
    result.patterns.length = draft.patterns.length + (opts.filter bearsContent).length := by
  induction opts generalizing draft with
  | nil =>
      obtain rfl := Except.ok.inj read
      rfl
  | cons opt opts ih =>
      rw [readOptions] at read
      split at read
      next empty =>
        rw [ih read, empty]
        rfl
      next =>
        cases step : readOption draft (optionParts opt).1 (optionParts opt).2 with
        | error err =>
            rw [step] at read
            cases read
        | ok between =>
            rw [step] at read
            rw [ih read, readOption_bears step, List.filter_cons]
            split
            · rw [List.length_cons]
              omega
            · omega

end Options

section Texts

variable {mark : UInt8} {front rest text body : List UInt8} {earlier : List (List UInt8)}

theorem exists_cut (member : mark ∈ text) :
    ∃ front rest, text = front ++ mark :: rest ∧ mark ∉ front := by
  obtain ⟨front, rest, split, absent⟩ := List.eq_append_cons_of_mem member
  exact ⟨front, rest, split, absent⟩

theorem dropWhile_past (plain : isSpace mark = false) :
    (front ++ mark :: rest).dropWhile isSpace = front.dropWhile isSpace ++ mark :: rest := by
  induction front with
  | nil => exact List.dropWhile_cons_of_neg (by simp [plain])
  | cons c front ih =>
      rw [List.cons_append, List.dropWhile_cons, List.dropWhile_cons]
      split
      · exact ih
      · rfl

theorem trim_past (plain : isSpace mark = false) : trim (front ++ mark :: rest) =
    front.dropWhile isSpace ++ mark :: rest.rdropWhile isSpace := by
  rw [trim, dropWhile_past plain, rdropWhile_past plain]

theorem bearsContent_past (absent : 58 ∉ front) :
    bearsContent (front ++ 58 :: rest) = decide (trim front = contentKey) := by
  rw [bearsContent, cutAt_past absent]

theorem bearsContent_trim : bearsContent (trim text) = bearsContent text := by
  by_cases colon : 58 ∈ text
  · obtain ⟨front, rest, rfl, absent⟩ := exists_cut colon
    have kept : 58 ∉ front.dropWhile isSpace := fun member =>
      absent ((List.dropWhile_sublist _).subset member)
    rw [trim_past rfl, bearsContent_past kept, bearsContent_past absent, trim, trim,
      List.dropWhile_idempotent]
  · have kept : 58 ∉ trim text := fun member =>
      colon ((List.dropWhile_sublist _).subset ((List.rdropWhile_prefix _ _).subset member))
    rw [bearsContent, bearsContent, cutAt_absent colon, cutAt_absent kept]

/-- A content option that breaks off behind its colon is one still. -/
theorem bearsContent_prefix (part : front <+: text) (bears : bearsContent front = true) :
    bearsContent text = true := by
  obtain ⟨rest, rfl⟩ := part
  by_cases colon : 58 ∈ front
  · obtain ⟨key, value, rfl, absent⟩ := exists_cut colon
    rw [bearsContent_past absent] at bears
    rw [List.append_assoc, List.cons_append, bearsContent_past absent]
    exact bears
  · rw [bearsContent, cutAt_absent colon] at bears
    cases bears

/-- The options that a text in front of the others is written with. -/
def joinOptions (earlier : List (List UInt8)) : List UInt8 := earlier.flatMap (· ++ [59])

/-- The option's semicolons and hashes stand inside its quotes. -/
def Enclosed (opt : List UInt8) : Prop := walk false opt = some false

theorem stripComment_joined (enclosed : ∀ opt ∈ earlier, Enclosed opt) :
    stripComment false (joinOptions earlier ++ rest) =
      joinOptions earlier ++ stripComment false rest := by
  induction earlier with
  | nil => rfl
  | cons opt earlier ih =>
      obtain ⟨here, others⟩ := List.forall_mem_cons.mp enclosed
      rw [joinOptions, List.flatMap_cons, ← joinOptions, List.append_assoc, List.append_assoc,
        stripComment_walk here, List.singleton_append, stripComment, if_neg (by simp)]
      have same : toggled false 59 = false := rfl
      rw [same, ih others, List.append_assoc, List.append_assoc]
      rfl

theorem splitOptions_joined (enclosed : ∀ opt ∈ earlier, Enclosed opt) :
    splitOptions false [] (joinOptions earlier ++ rest) =
      earlier.map trim ++ splitOptions false [] rest := by
  induction earlier with
  | nil => rfl
  | cons opt earlier ih =>
      obtain ⟨here, others⟩ := List.forall_mem_cons.mp enclosed
      rw [joinOptions, List.flatMap_cons, ← joinOptions, List.append_assoc, List.append_assoc,
        splitOptions_walk here, List.singleton_append, splitOptions, if_pos ⟨rfl, rfl⟩, ih others]
      rfl

/-- Options that break off before the last of them is read give no content more. -/
theorem count_broken (enclosed : ∀ opt ∈ earlier, Enclosed opt)
    (part : body <+: joinOptions earlier) :
    ((splitOptions false [] body).filter bearsContent).length ≤
      ((earlier.map trim).filter bearsContent).length := by
  induction earlier generalizing body with
  | nil =>
      rw [List.prefix_nil.mp part]
      exact Nat.le_refl _
  | cons opt earlier ih =>
      obtain ⟨here, others⟩ := List.forall_mem_cons.mp enclosed
      rw [joinOptions, List.flatMap_cons, ← joinOptions, List.append_assoc,
        List.singleton_append] at part
      have within : body <+: opt → ((splitOptions false [] body).filter bearsContent).length ≤
          (((opt :: earlier).map trim).filter bearsContent).length := by
        intro first
        obtain ⟨between, walked⟩ := walk_of_append (first.choose_spec.symm ▸ here)
        have pieces := @splitOptions_walk false between [] body [] walked
        rw [List.append_nil, List.nil_append, splitOptions] at pieces
        rw [pieces, List.map_cons, List.filter_cons]
        split
        next => exact Nat.zero_le _
        next =>
          rw [List.filter_singleton]
          cases bears : bearsContent (trim body) with
          | false => exact Nat.zero_le _
          | true =>
              rw [bearsContent_trim] at bears
              rw [bearsContent_trim, bearsContent_prefix first bears, if_pos rfl]
              simp
      obtain ⟨behind, split⟩ := part
      rcases List.append_eq_append_iff.mp split with ⟨left, same, _⟩ | ⟨taken, same, onward⟩
      · exact within ⟨left, same.symm⟩
      · cases taken with
        | nil => exact within ⟨[], by rw [same, List.append_nil, List.append_nil]⟩
        | cons first taken =>
            obtain ⟨mark, later⟩ := List.cons.inj onward
            have fewer := ih others ⟨behind, later.symm⟩
            rw [same, ← mark, splitOptions_walk here, splitOptions, if_pos ⟨rfl, rfl⟩,
              List.nil_append, List.map_cons, List.filter_cons, List.filter_cons]
            split
            · exact Nat.succ_le_succ fewer
            · exact fewer

end Texts

section Lines

variable {vars : VarMap} {line header rest body tail : List UInt8} {mark : UInt8}
  {draft : RuleDraft}

theorem idxOf?_past (absent : mark ∉ header) :
    (header ++ mark :: rest).idxOf? mark = some header.length := by
  induction header with
  | nil => simp [List.idxOf?_cons]
  | cons c header ih =>
      obtain ⟨other, absent⟩ := List.ne_and_not_mem_of_not_mem_cons absent
      rw [List.cons_append, List.idxOf?_cons, if_neg (by simpa using Ne.symm other), ih absent]
      rfl

theorem lastIdxOf?_past (absent : mark ∉ tail) :
    lastIdxOf? mark (body ++ mark :: tail) = some body.length := by
  have turned : (body ++ mark :: tail).reverse = tail.reverse ++ mark :: body.reverse := by simp
  rw [lastIdxOf?, turned, idxOf?_past (by simpa using absent), Option.map_some]
  congr 1
  simp

theorem exists_last (member : mark ∈ rest) : ∃ body tail, rest = body ++ mark :: tail ∧ mark ∉ tail := by
  obtain ⟨front, behind, split, absent⟩ := exists_cut (List.mem_reverse.mpr member)
  refine ⟨behind.reverse, front.reverse, ?_, by simpa using absent⟩
  rw [← List.reverse_reverse rest, split]
  simp

theorem last_unique {other behind : List UInt8} (same : body ++ mark :: tail = other ++ mark :: behind)
    (absent : mark ∉ tail) (last : mark ∉ behind) : body = other := by
  have here : lastIdxOf? mark (body ++ mark :: tail) = some body.length := lastIdxOf?_past absent
  rw [same, lastIdxOf?_past last] at here
  exact (List.append_inj same (Option.some.inj here).symm).1

/-- The parentheses are the first opening one and the last closing one. -/
theorem cutParens_past (opens : 40 ∉ header) (closes : 41 ∉ tail) :
    cutParens (header ++ 40 :: (body ++ 41 :: tail)) = some (header, body) := by
  have last : lastIdxOf? 41 (header ++ 40 :: (body ++ 41 :: tail)) =
      some (header.length + 1 + body.length) := by
    have found := @lastIdxOf?_past (header ++ 40 :: body) tail 41 closes
    rw [List.append_assoc, List.cons_append] at found
    rw [found, List.length_append, List.length_cons]
    congr 1
    omega
  unfold cutParens
  rw [idxOf?_past opens, last]
  dsimp only
  rw [if_neg (by omega)]
  congr 2
  · exact List.take_left
  · unfold slice
    have length : header.length + 1 + body.length - header.length - 1 = body.length := by omega
    rw [length, ← List.drop_drop, List.drop_left]
    exact List.take_left

theorem cutParens_unclosed (opens : 40 ∉ header) (absent : 41 ∉ rest) :
    cutParens (header ++ 40 :: rest) = none := by
  unfold cutParens
  rw [idxOf?_past opens]
  by_cases member : 41 ∈ header
  · obtain ⟨front, behind, rfl, last⟩ := exists_last member
    have found := @lastIdxOf?_past front (behind ++ 40 :: rest) 41 (by simp [last, absent])
    rw [List.append_assoc, List.cons_append, found]
    exact if_pos (by simp)
  · have none : lastIdxOf? 41 (header ++ 40 :: rest) = none := by
      rw [lastIdxOf?, Option.map_eq_none_iff, List.idxOf?_eq_none_iff, List.mem_reverse]
      simp [member, absent]
    rw [none]

/-- What is trimmed off changes neither the header nor the options. -/
theorem parseRule_trimmed : parseRule vars (trim (header ++ 40 :: rest)) =
    match cutParens (header.dropWhile isSpace ++ 40 :: rest.rdropWhile isSpace) with
    | none => .rejected ⟨"missing option parens", []⟩
    | some (header, body) => parseCut vars header body := by
  have trimmed : trim (trim (header ++ 40 :: rest)) =
      header.dropWhile isSpace ++ 40 :: rest.rdropWhile isSpace := by
    rw [trim_past rfl, trim_past rfl, List.dropWhile_idempotent, List.rdropWhile_idempotent]
  cases found : cutParens (header.dropWhile isSpace ++ 40 :: rest.rdropWhile isSpace) with
  | none => simp only [parseRule, trimmed, found]
  | some cut => simp only [parseRule, trimmed, found]

theorem parseCut_accepted : parseCut vars header body = .accepted draft ↔
    ∃ start, parseHeader vars header = .accepted start ∧
      readOptions start (splitOptions false [] body) = .ok draft ∧ draft.rule.sid ≠ 0 := by
  unfold parseCut
  cases parseHeader vars header with
  | rejected err => exact iff_of_false (fun parsed => by cases parsed) fun ⟨_, other, _⟩ => by cases other
  | outOfBounds => exact iff_of_false (fun parsed => by cases parsed) fun ⟨_, other, _⟩ => by cases other
  | accepted start =>
      cases read : readOptions start (splitOptions false [] body) with
      | error err =>
          refine iff_of_false (fun parsed => by simp [read] at parsed) ?_
          rintro ⟨_, same, other, _⟩
          cases same
          rw [read] at other
          cases other
      | ok found =>
          dsimp only
          rw [read]
          dsimp only
          constructor
          · intro parsed
            split at parsed
            next => cases parsed
            next numbered =>
              cases parsed
              exact ⟨start, rfl, read, numbered⟩
          · rintro ⟨_, same, other, numbered⟩
            cases same
            rw [read] at other
            cases other
            exact if_neg numbered

/-- When a line is loaded. -/
theorem loaded_iff (opens : 40 ∉ header) (stripped : stripComment false line = header ++ 40 :: rest) :
    loadLine vars line = .loaded draft ↔
      ∃ body tail start, rest = body ++ 41 :: tail ∧ 41 ∉ tail ∧
        parseHeader vars (header.dropWhile isSpace) = .accepted start ∧
        readOptions start (splitOptions false [] body) = .ok draft ∧
        draft.rule.sid ≠ 0 ∧ draft.rule.pcrePatterns = [] := by
  have kept : 40 ∉ header.dropWhile isSpace := fun member =>
    opens ((List.dropWhile_sublist _).subset member)
  have something : trim (header ++ 40 :: rest) ≠ [] := by
    rw [trim_past rfl]
    exact List.append_ne_nil_of_right_ne_nil _ (List.cons_ne_nil _ _)
  rw [loadLine, stripped, if_neg something, parseRule_trimmed]
  by_cases closes : 41 ∈ rest
  · obtain ⟨body, tail, rfl, last⟩ := exists_last closes
    have left : 41 ∉ tail.rdropWhile isSpace := fun member =>
      last ((List.rdropWhile_prefix _ _).subset member)
    rw [rdropWhile_past rfl, cutParens_past kept left]
    constructor
    · intro loaded
      cases parsed : parseCut vars (header.dropWhile isSpace) body with
      | rejected err => simp [parsed] at loaded
      | outOfBounds => simp [parsed] at loaded
      | accepted found =>
          simp only [parsed] at loaded
          split at loaded
          next plain =>
            cases loaded
            obtain ⟨start, begun, read, numbered⟩ := parseCut_accepted.1 parsed
            exact ⟨body, tail, start, rfl, last, begun, read, numbered, plain⟩
          next => cases loaded
    · rintro ⟨other, behind, start, same, absent, begun, read, numbered, plain⟩
      rw [last_unique same.symm absent last] at read
      dsimp only
      rw [parseCut_accepted.2 ⟨start, begun, read, numbered⟩]
      exact if_pos plain
  · have left : 41 ∉ rest.rdropWhile isSpace := fun member =>
      closes ((List.rdropWhile_prefix _ _).subset member)
    rw [cutParens_unclosed kept left]
    refine iff_of_false (fun loaded => by cases loaded) ?_
    rintro ⟨body, tail, _, rfl, _⟩
    exact closes (by simp)

theorem parseHeader_patterns (parsed : parseHeader vars header = .accepted draft) :
    draft.patterns = [] := by
  unfold parseHeader at parsed
  repeat' split at parsed
  all_goals first
    | cases parsed
      rfl
    | cases parsed

end Lines

section Content

variable {text inner rest front : List UInt8} {start draft : RuleDraft} {pattern : Pattern}
  {earlier more : List (List UInt8)} {quoted after : Bool} {cur : List UInt8}

theorem trim_content : trim (contentKey ++ 58 :: 34 :: inner) =
    contentKey ++ 58 :: trim (34 :: inner) := by
  have key : contentKey.dropWhile isSpace = contentKey := by decide
  have value : (34 :: inner).rdropWhile isSpace = 34 :: inner.rdropWhile isSpace :=
    @rdropWhile_past [] _ _ rfl
  rw [trim_past rfl, key, trim_quote, value]

theorem optionParts_content : optionParts (contentKey ++ 58 :: trim (34 :: inner)) =
    (contentKey, trim (34 :: inner)) := by
  have key : trim contentKey = contentKey := by decide
  rw [optionParts, cutAt_past (by decide), trim_quote]
  dsimp only
  rw [key, trim_quote, List.rdropWhile_idempotent]

theorem readOption_content (parsed : parseContentValue rest = .ok pattern) :
    readOption start contentKey rest = .ok (start.addContent pattern) := by
  rw [readOption, lookup_content.2 rfl]
  dsimp only
  rw [parsed]

/-- The pattern that the content behind other options gets. -/
theorem readOptions_content (begun : start.patterns = [])
    (read : readOptions start
      (earlier.map trim ++ trim (contentKey ++ 58 :: 34 :: inner) :: more) = .ok draft) :
    ∃ between pattern, readOptions start (earlier.map trim) = .ok between ∧
      between.patterns.length = ((earlier.map trim).filter bearsContent).length ∧
      parseContentValue (trim (34 :: inner)) = .ok pattern ∧
      readOptions (between.addContent pattern) more = .ok draft ∧
      draft.patterns[((earlier.map trim).filter bearsContent).length]? = some pattern := by
  rw [readOptions_append] at read
  cases first : readOptions start (earlier.map trim) with
  | error err =>
      rw [first] at read
      cases read
  | ok between =>
      rw [first, trim_content] at read
      dsimp only at read
      rw [readOptions, if_neg (by simp [contentKey]), optionParts_content] at read
      dsimp only at read
      have counted := readOptions_count first
      rw [begun, List.length_nil, Nat.zero_add] at counted
      cases parsed : parseContentValue (trim (34 :: inner)) with
      | error err =>
          rw [readOption, lookup_content.2 rfl] at read
          dsimp only at read
          rw [parsed] at read
          cases read
      | ok pattern =>
          rw [readOption_content parsed] at read
          obtain ⟨others, same⟩ := readOptions_prefix read
          refine ⟨between, pattern, rfl, counted, rfl, read, ?_⟩
          have added : (between.addContent pattern).patterns = between.patterns ++ [pattern] :=
            List.map_append
          rw [← same, added, ← counted, List.append_assoc, List.getElem?_append_right (Nat.le_refl _),
            Nat.sub_self]
          rfl

/-- What the splitting makes of a piece that has begun. -/
theorem splitOptions_begun {first : UInt8} (plain : isSpace first = false) :
    ∃ behind others,
      splitOptions quoted (first :: cur) rest = trim (first :: (cur ++ behind)) :: others := by
  have something : ∀ more, trim (first :: more) ≠ [] := by
    intro more
    have past := @trim_past first [] more plain
    rw [List.nil_append] at past
    rw [past]
    exact List.cons_ne_nil _ _
  induction rest generalizing quoted cur with
  | nil =>
      rw [splitOptions, if_neg (something cur)]
      exact ⟨[], [], by rw [List.append_nil]⟩
  | cons c rest ih =>
      rw [splitOptions]
      split
      · exact ⟨[], _, by rw [List.append_nil]⟩
      · obtain ⟨behind, others, same⟩ := @ih (toggled quoted c) (cur ++ [c])
        refine ⟨c :: behind, others, ?_⟩
        rw [List.cons_append, same, List.append_assoc]
        rfl

/-- The key of the option and the opening quote. -/
theorem walk_content : walk false (contentKey ++ 58 :: 34 :: text) = walk true text := by
  have opened : walk false (contentKey ++ [58, 34]) = some true := by decide
  have whole : contentKey ++ 58 :: 34 :: text = contentKey ++ [58, 34] ++ text := by simp
  rw [whole, walk_append, opened]
  rfl

/-- The value of the content option, with its quotes. -/
theorem splitOptions_shielded (walked : walk true text = some true) :
    splitOptions false [] (contentKey ++ 58 :: 34 :: (text ++ 34 :: 59 :: rest)) =
      trim (contentKey ++ 58 :: 34 :: (text ++ [34])) :: splitOptions false [] rest := by
  have front : walk false (contentKey ++ 58 :: 34 :: (text ++ [34])) = some false := by
    rw [walk_content, walk_append, walked]
    rfl
  have whole : contentKey ++ 58 :: 34 :: (text ++ 34 :: 59 :: rest) =
      contentKey ++ 58 :: 34 :: (text ++ [34]) ++ 59 :: rest := by simp
  rw [whole, splitOptions_walk front, splitOptions, if_pos ⟨rfl, rfl⟩, List.nil_append]

/-- A value that leaves its quotes open runs on. -/
theorem splitOptions_open (walked : walk true text = some false) :
    ∃ behind others, splitOptions false [] (contentKey ++ 58 :: 34 :: (text ++ 34 :: 59 :: rest)) =
      trim (contentKey ++ 58 :: 34 :: (text ++ 34 :: 59 :: behind)) :: others := by
  have front : walk false (contentKey ++ 58 :: 34 :: (text ++ [34, 59])) = some true := by
    rw [walk_content, walk_append, walked]
    rfl
  have whole : contentKey ++ 58 :: 34 :: (text ++ 34 :: 59 :: rest) =
      contentKey ++ 58 :: 34 :: (text ++ [34, 59]) ++ rest := by simp
  have plain : isSpace 99 = false := by decide
  obtain ⟨behind, others, same⟩ := @splitOptions_begun rest true
    ([111, 110, 116, 101, 110, 116] ++ 58 :: 34 :: (text ++ [34, 59])) 99 plain
  refine ⟨behind, others, ?_⟩
  rw [whole, splitOptions_walk front, List.nil_append]
  refine same.trans ?_
  congr 2
  simp [contentKey]

/-- A value that breaks off, at the end or at a semicolon. -/
theorem splitOptions_broken (walked : walk true text = some after) :
    splitOptions false [] (contentKey ++ 58 :: 34 :: text) =
      [trim (contentKey ++ 58 :: 34 :: text)] := by
  have pieces := @splitOptions_walk false after [] _ [] (walk_content.trans walked)
  rw [List.append_nil, List.nil_append, splitOptions, if_neg] at pieces
  · exact pieces
  · rw [trim_content]
    simp [contentKey]

theorem splitOptions_cut (walked : walk true text = some false) :
    splitOptions false [] (contentKey ++ 58 :: 34 :: (text ++ 59 :: rest)) =
      trim (contentKey ++ 58 :: 34 :: text) :: splitOptions false [] rest := by
  have whole : contentKey ++ 58 :: 34 :: (text ++ 59 :: rest) =
      contentKey ++ 58 :: 34 :: text ++ 59 :: rest := by simp
  rw [whole, splitOptions_walk (walk_content.trans walked), splitOptions, if_pos ⟨rfl, rfl⟩,
    List.nil_append]

end Content

section Frames

/-- A rule line around the value of a content option. -/
structure RuleFrame where
  header : List UInt8
  earlier : List (List UInt8)
  later : List UInt8

namespace RuleFrame

variable (frame : RuleFrame)

def line (value : List UInt8) : List UInt8 :=
  frame.header ++ 40 :: (joinOptions frame.earlier ++ (contentKey ++ 58 :: (value ++
    59 :: frame.later)))

/-- The place of the content among those of the rule. -/
def place : Nat := ((frame.earlier.map trim).filter bearsContent).length

/-- The line is loaded with `x` for its content. -/
structure Valid (vars : VarMap) : Prop where
  opens : 40 ∉ frame.header
  header : Enclosed frame.header
  earlier : ∀ opt ∈ frame.earlier, Enclosed opt
  closes : 41 ∈ stripComment false frame.later
  loads : ∃ draft, loadLine vars (frame.line [34, 120, 34]) = .loaded draft

end RuleFrame

/-- The line is loaded, and the content is what the tokens write. -/
def RoundTrips (vars : VarMap) (frame : RuleFrame) (tokens : List ContentToken)
    (bytes : List UInt8) : Prop :=
  ∃ draft, loadLine vars (frame.line (34 :: (tokens.flatMap ContentToken.text ++ [34]))) =
      .loaded draft ∧
    ∃ pattern ∈ draft.patterns[frame.place]?, pattern.val = bytes

/-- Every semicolon and hash in the text stands behind an odd number of quotes, and so does its
end, when the quote in front is counted. -/
def Shielded (text : List UInt8) : Prop := walk true text = some true

instance (text : List UInt8) : Decidable (Shielded text) :=
  inferInstanceAs (Decidable (_ = _))

variable {vars : VarMap} {frame : RuleFrame} {tokens : List ContentToken}
  {bytes value text : List UInt8} {draft : RuleDraft}

theorem stripComment_line (valid : frame.Valid vars) (value : List UInt8) :
    stripComment false (frame.line value) =
      frame.header ++ 40 :: (joinOptions frame.earlier ++ (contentKey ++ 58 ::
        stripComment false (value ++ 59 :: frame.later))) := by
  have opened : ∀ rest, stripComment false (40 :: rest) = 40 :: stripComment false rest :=
    fun _ => rfl
  have key : walk false (contentKey ++ [58]) = some false := by decide
  have content := @stripComment_walk false false _ (value ++ 59 :: frame.later) key
  rw [List.append_assoc, List.append_assoc] at content
  rw [RuleFrame.line, stripComment_walk valid.header, opened, stripComment_joined valid.earlier]
  exact congrArg (fun text => frame.header ++ 40 :: (joinOptions frame.earlier ++ text)) content

/-- The end of the value, when its quotes shield it. -/
theorem stripComment_shielded (shielded : Shielded text) (later : List UInt8) :
    stripComment false (34 :: (text ++ [34]) ++ 59 :: later) =
      34 :: (text ++ 34 :: 59 :: stripComment false later) := by
  have walked : walk false (34 :: (text ++ [34])) = some false := by
    have opened : walk false (34 :: (text ++ [34])) = walk true (text ++ [34]) := rfl
    rw [opened, walk_append, shielded]
    rfl
  have mark : stripComment false (59 :: later) = 59 :: stripComment false later := rfl
  rw [stripComment_walk walked, mark]
  simp

/-- When a shielded value is loaded. -/
theorem loaded_shielded {rest tail : List UInt8} (valid : frame.Valid vars)
    (closes : stripComment false frame.later = rest ++ 41 :: tail) (last : 41 ∉ tail)
    (shielded : Shielded text) :
    loadLine vars (frame.line (34 :: (text ++ [34]))) = .loaded draft ↔
      ∃ start, parseHeader vars (frame.header.dropWhile isSpace) = .accepted start ∧
        readOptions start (frame.earlier.map trim ++
          trim (contentKey ++ 58 :: 34 :: (text ++ [34])) :: splitOptions false [] rest) =
            .ok draft ∧
        draft.rule.sid ≠ 0 ∧ draft.rule.pcrePatterns = [] := by
  have stripped := stripComment_line valid (34 :: (text ++ [34]))
  rw [stripComment_shielded shielded, closes] at stripped
  rw [loaded_iff valid.opens stripped]
  have whole : joinOptions frame.earlier ++ (contentKey ++ 58 :: 34 :: (text ++
      34 :: 59 :: (rest ++ 41 :: tail))) =
        (joinOptions frame.earlier ++ (contentKey ++ 58 :: 34 :: (text ++ 34 :: 59 :: rest))) ++
          41 :: tail := by simp
  have pieces : splitOptions false []
      (joinOptions frame.earlier ++ (contentKey ++ 58 :: 34 :: (text ++ 34 :: 59 :: rest))) =
        frame.earlier.map trim ++
          trim (contentKey ++ 58 :: 34 :: (text ++ [34])) :: splitOptions false [] rest := by
    rw [splitOptions_joined valid.earlier, splitOptions_shielded shielded]
  rw [whole]
  constructor
  · rintro ⟨body, behind, start, split, absent, begun, read, numbered⟩
    rw [← last_unique split last absent, pieces] at read
    exact ⟨start, begun, read, numbered⟩
  · rintro ⟨start, begun, read, numbered⟩
    rw [← pieces] at read
    exact ⟨_, tail, start, rfl, last, begun, read, numbered⟩

/-- A shielded value is read as what it writes. -/
theorem roundTrips_of_shielded (valid : frame.Valid vars) (writes : Writes tokens bytes)
    (something : bytes ≠ []) (shielded : Shielded (tokens.flatMap ContentToken.text)) :
    RoundTrips vars frame tokens bytes := by
  obtain ⟨reference, loads⟩ := valid.loads
  obtain ⟨rest, tail, closes, last⟩ := exists_last valid.closes
  have plain : Shielded [120] := by decide
  obtain ⟨start, begun, read, numbered, noPcre⟩ :=
    (loaded_shielded valid closes last plain).mp loads
  obtain ⟨between, letter, first, counted, _, after, _⟩ :=
    readOptions_content (parseHeader_patterns begun) read
  have whole : trim (34 :: (tokens.flatMap ContentToken.text ++ [34])) =
      34 :: (tokens.flatMap ContentToken.text ++ [34]) := by
    rw [trim_quote, rdropWhile_past rfl]
    rfl
  have parsed : parseContentValue (trim (34 :: (tokens.flatMap ContentToken.text ++ [34]))) =
      .ok ⟨bytes, something⟩ := by
    rw [whole]
    refine parseContentValue_eq_ok.2 ⟨⟨tokens, false⟩, ?_, ?_⟩
    · simp [ContentText.text, ContentText.tail]
    · simp [ContentText.bytes, ContentText.tail, writes.denotes]
  have alike : Alike (between.addContent letter) (between.addContent ⟨bytes, something⟩) :=
    ⟨by simp [RuleDraft.addContent], rfl, rfl⟩
  obtain ⟨draft, changed, same⟩ := alike.readOptions after
  have reads : readOptions start (frame.earlier.map trim ++
      trim (contentKey ++ 58 :: 34 :: (tokens.flatMap ContentToken.text ++ [34])) ::
        splitOptions false [] rest) = .ok draft := by
    rw [readOptions_append, first, trim_content]
    dsimp only
    rw [readOptions, if_neg (by simp [contentKey]), optionParts_content]
    dsimp only
    rw [readOption_content parsed]
    exact changed
  refine ⟨draft, (loaded_shielded valid closes last shielded).mpr
    ⟨start, begun, reads, same.sid ▸ numbered, same.pcre ▸ noPcre⟩, ?_⟩
  obtain ⟨_, pattern, _, _, again, _, found⟩ :=
    readOptions_content (parseHeader_patterns begun) reads
  rw [parsed] at again
  cases again
  exact ⟨_, found, rfl⟩

/-- What is left of a value that its quotes do not shield: all of it, with quotes that stay
open, or what stands in front of a semicolon or a hash. -/
inductive Exposed (text : List UInt8) : (kept behind : List UInt8) → Prop where
  | unclosed (rest : List UInt8) (walked : walk true text = some false) :
      Exposed text text (34 :: 59 :: rest)
  | comment (kept : List UInt8) (c : UInt8) (rest : List UInt8) (split : text = kept ++ c :: rest)
      (walked : walk true kept = some false) : Exposed text kept []
  | piece (kept : List UInt8) (c : UInt8) (rest behind : List UInt8)
      (split : text = kept ++ c :: rest) (walked : walk true kept = some false) :
      Exposed text kept (59 :: behind)

theorem stripComment_exposed (exposed : ¬ Shielded text) (later : List UInt8) :
    ∃ kept behind, stripComment false (34 :: (text ++ [34]) ++ 59 :: later) =
      34 :: (kept ++ behind) ∧ Exposed text kept behind := by
  have opened : stripComment false (34 :: (text ++ [34]) ++ 59 :: later) =
      34 :: stripComment true (text ++ 34 :: 59 :: later) := by
    rw [List.cons_append, List.append_assoc]
    rfl
  rw [opened]
  cases walked : walk true text with
  | some quoted =>
      cases quoted with
      | true => exact absurd walked exposed
      | false =>
          rw [stripComment_walk walked]
          exact ⟨text, _, rfl, .unclosed _ walked⟩
  | none =>
      obtain ⟨front, c, rest, rfl, here, mark⟩ := walk_none walked
      rw [List.append_assoc, stripComment_walk here]
      rcases mark with rfl | rfl
      · exact ⟨front, _, rfl, .piece front 59 rest _ rfl here⟩
      · exact ⟨front, [], rfl, .comment front 35 rest rfl here⟩

/-- The content option of an exposed value is not read as the bytes. -/
def Misread (tokens : List ContentToken) (pieces : List (List UInt8)) : Prop :=
  ∃ inner others, pieces = trim (contentKey ++ 58 :: 34 :: inner) :: others ∧
    ∀ pattern, parseContentValue (trim (34 :: inner)) = .ok pattern →
      pattern.val ≠ tokens.flatMap ContentToken.bytes

theorem misread_of_exposed {kept behind inner tail : List UInt8}
    (escaped : ∀ token ∈ tokens, token.Escaped)
    (exposed : Exposed (tokens.flatMap ContentToken.text) kept behind)
    (split : kept ++ behind = inner ++ 41 :: tail) :
    Misread tokens (splitOptions false [] (contentKey ++ 58 :: 34 :: inner)) := by
  -- The body ends inside the text, where a parenthesis of it closes the options.
  have inside : ∀ {rest more : List UInt8}, walk true kept = some false →
      tokens.flatMap ContentToken.text = kept ++ more → kept = inner ++ 41 :: rest →
        Misread tokens (splitOptions false [] (contentKey ++ 58 :: 34 :: inner)) := by
    intro rest more walked whole same
    obtain ⟨between, here⟩ := walk_of_append (same ▸ walked)
    refine ⟨inner, [], splitOptions_broken here, fun pattern parsed => ?_⟩
    refine @parse_broken tokens pattern (rest ++ more) inner 41 escaped ?_ parsed
    rw [whole, same, List.append_assoc]
    rfl
  rcases List.append_eq_append_iff.mp split with ⟨taken, same, onward⟩ | ⟨left, same, onward⟩
  · cases exposed with
    | unclosed rest walked =>
        obtain ⟨front, rfl, _⟩ := split_past (by decide : (41 : UInt8) ∉ [34, 59]) onward
        obtain ⟨behind, others, pieces⟩ := @splitOptions_open _ front walked
        rw [same]
        refine ⟨_, others, pieces, fun pattern parsed => ?_⟩
        rw [trim_quote, rdropWhile_past rfl] at parsed
        refine parse_overrun ?_ parsed
        have mark := @rdropWhile_past [] behind 59 rfl
        rw [List.nil_append] at mark
        rw [mark]
        exact List.append_ne_nil_of_right_ne_nil _ (List.cons_ne_nil _ _)
    | comment _ c rest whole walked => simp at onward
    | piece _ c rest behind whole walked =>
        obtain ⟨front, rfl, _⟩ := split_past (by decide : (41 : UInt8) ∉ [59]) onward
        rw [same]
        exact ⟨kept, _, splitOptions_cut walked, fun pattern parsed =>
          parse_broken escaped whole parsed⟩
  · cases left with
    | nil => cases exposed <;> cases onward
    | cons first left =>
        obtain ⟨rfl, _⟩ := List.cons.inj onward
        cases exposed with
        | unclosed rest walked => exact inside walked (List.append_nil _).symm same
        | comment _ c rest whole walked => exact inside walked whole same
        | piece _ c rest behind whole walked => exact inside walked whole same

/-- A value that is not shielded is not. -/
theorem shielded_of_roundTrips (valid : frame.Valid vars) (writes : Writes tokens bytes)
    (roundTrips : RoundTrips vars frame tokens bytes) :
    Shielded (tokens.flatMap ContentToken.text) := by
  by_contra exposed
  obtain ⟨draft, loads, pattern, found, read_as⟩ := roundTrips
  obtain ⟨kept, behind, stripped, left⟩ := stripComment_exposed exposed frame.later
  have line := stripComment_line valid (34 :: (tokens.flatMap ContentToken.text ++ [34]))
  rw [stripped] at line
  obtain ⟨body, tail, start, split, last, begun, read, _⟩ := (loaded_iff valid.opens line).mp loads
  have fresh := parseHeader_patterns begun
  rcases List.append_eq_append_iff.mp split with ⟨inside, same, onward⟩ | ⟨left, same, _⟩
  · have whole : contentKey ++ [58, 34] ++ (kept ++ behind) = inside ++ 41 :: tail := by
      rw [← onward]
      simp
    obtain ⟨inner, rfl, ends⟩ := split_past (by decide) whole
    obtain ⟨value, others, pieces, misread⟩ := misread_of_exposed writes.escaped left ends
    have body_eq : contentKey ++ [58, 34] ++ inner = contentKey ++ 58 :: 34 :: inner := by simp
    rw [same, body_eq, splitOptions_joined valid.earlier, pieces] at read
    obtain ⟨_, other, _, _, parsed, _, placed⟩ := readOptions_content fresh read
    rw [RuleFrame.place, placed] at found
    cases found
    rw [writes.denotes] at misread
    exact misread pattern parsed read_as
  · have counted := readOptions_count read
    rw [fresh, List.length_nil, Nat.zero_add] at counted
    have fewer := count_broken valid.earlier ⟨left, same.symm⟩
    obtain ⟨inside, _⟩ := List.getElem?_eq_some_iff.mp found
    rw [RuleFrame.place] at inside
    omega

/-- A content that is written with escapes into a rule line is loaded as its bytes exactly when
the quotes in its text, escaped or not, shield its semicolons and hashes and come in pairs. -/
theorem roundTrips_iff (valid : frame.Valid vars) (writes : Writes tokens bytes)
    (something : bytes ≠ []) :
    RoundTrips vars frame tokens bytes ↔ Shielded (tokens.flatMap ContentToken.text) :=
  ⟨shielded_of_roundTrips valid writes, roundTrips_of_shielded valid writes something⟩

end Frames

section Samples

/-- `alert tcp any any -> any any (msg:"a"; content:…; sid:1;)`. -/
def sampleFrame : RuleFrame :=
  ⟨[97, 108, 101, 114, 116, 32, 116, 99, 112, 32, 97, 110, 121, 32, 97, 110, 121, 32] ++
      [45, 62, 32, 97, 110, 121, 32, 97, 110, 121, 32],
    [[109, 115, 103, 58, 34, 97, 34]], [32, 115, 105, 100, 58, 49, 59, 41]⟩

def sampleDraft (pattern : Pattern) : RuleDraft :=
  ⟨⟨1, .tcp, ⟨[], true, false⟩, ⟨[], true, false⟩, ⟨[], true, false⟩, ⟨[], true, false⟩,
    [⟨pattern, .raw, false, none, none, none, none⟩], []⟩, 0, [97], .raw⟩

theorem sampleFrame_valid : sampleFrame.Valid [] where
  opens := by decide
  header := by
    unfold Enclosed
    decide
  earlier := by
    unfold Enclosed
    decide
  closes := by decide
  loads := ⟨sampleDraft ⟨[120], by decide⟩, by decide⟩

/-- `a;\"\"#`: two quotes that are escaped. -/
def pairedTokens : List ContentToken :=
  [.literal 97 (by decide), .literal 59 (by decide), .escape 34, .escape 34,
    .literal 35 (by decide)]

/-- `a\"b`: one quote. -/
def singleTokens : List ContentToken :=
  [.literal 97 (by decide), .escape 34, .literal 98 (by decide)]

theorem pairedTokens_writes : Writes pairedTokens [97, 59, 34, 34, 35] where
  escaped := by simp [pairedTokens, ContentToken.Escaped]
  denotes := rfl
  oneLine := by decide

theorem singleTokens_writes : Writes singleTokens [97, 34, 98] where
  escaped := by simp [singleTokens, ContentToken.Escaped]
  denotes := rfl
  oneLine := by decide

theorem roundTrips_sample : RoundTrips [] sampleFrame pairedTokens [97, 59, 34, 34, 35] :=
  (roundTrips_iff sampleFrame_valid pairedTokens_writes (by decide)).mpr (by decide)

theorem escaped_quote_refused :
    ¬ ∀ (vars : VarMap) (frame : RuleFrame) (tokens : List ContentToken) (bytes : List UInt8),
        frame.Valid vars → Writes tokens bytes → bytes ≠ [] →
          RoundTrips vars frame tokens bytes := by
  intro trips
  obtain ⟨draft, loads, _⟩ :=
    trips [] sampleFrame singleTokens _ sampleFrame_valid singleTokens_writes (by decide)
  have refused : loadLine [] (sampleFrame.line
      (34 :: (singleTokens.flatMap ContentToken.text ++ [34]))) =
        .skipped ⟨"content value must be quoted", []⟩ := by decide
  rw [refused] at loads
  cases loads

end Samples

end Idsm.EthProbe
