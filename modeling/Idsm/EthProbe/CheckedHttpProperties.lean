import Idsm.EthProbe.CheckedTlsProperties

/-! The HTTP parser reads only inside its input, and with it every application parser. -/

set_option autoImplicit false

namespace Idsm.EthProbe

open Idsm.Foundation

variable {data sl : List UInt8}

section Scans

theorem isPrefixOf_take {text : List UInt8} {length : Nat} :
    text.isPrefixOf (data.take length) =
      (decide (text.length ≤ length) && data.take text.length == text) := by
  rw [Bool.eq_iff_iff, List.isPrefixOf_iff_prefix, Bool.and_eq_true, decide_eq_true_eq,
    beq_iff_eq, List.prefix_take_iff, List.prefix_iff_eq_take]
  constructor
  · intro front
    exact ⟨front.2, front.1.symm⟩
  · intro front
    exact ⟨front.2.symm, front.1⟩

theorem startsWith_ok {length : Nat} {text : List UInt8} (inside : length ≤ data.length) :
    Checked.startsWith data length text = .ok (text.isPrefixOf (data.take length)) := by
  rw [Checked.startsWith, isPrefixOf_take]
  by_cases long : text.length ≤ length
  · rw [if_pos long, whole_copy (by omega), Checked.ok_bind, decide_eq_true long, Bool.true_and]
    rfl
  · rw [if_neg long, decide_eq_false long, Bool.false_and]
    rfl

theorem startsWithMethod_ok (methods : List (List UInt8)) :
    Checked.startsWithMethod data methods =
      .ok (methods.any fun m => (m ++ [32]).isPrefixOf data) := by
  induction methods with
  | nil => rfl
  | cons m methods ih =>
      rw [Checked.startsWithMethod, List.any_cons]
      have whole : (m ++ [32]).isPrefixOf data =
          (decide (m.length < data.length) && (data.take m.length == m &&
            byteAt data m.length == 32)) := by
        rw [Bool.eq_iff_iff, List.isPrefixOf_iff_prefix, Bool.and_eq_true, decide_eq_true_eq,
          Bool.and_eq_true, beq_iff_eq, beq_iff_eq]
        constructor
        · rintro ⟨rest, rfl⟩
          have byte : byteAt (m ++ [32] ++ rest) m.length = 32 := by
            rw [List.append_assoc]
            exact byteAt_front m rest 32
          refine ⟨by simp, ?_, byte⟩
          rw [List.append_assoc, List.take_left]
        · rintro ⟨shorter, front, space⟩
          refine ⟨data.drop (m.length + 1), ?_⟩
          rw [byteAt, List.getD_eq_getElem _ _ shorter] at space
          calc m ++ [32] ++ data.drop (m.length + 1)
              = data.take m.length ++ (data[m.length] :: data.drop (m.length + 1)) := by
                rw [front, space, List.append_assoc, List.singleton_append]
            _ = data := by rw [← List.drop_eq_getElem_cons shorter, List.take_append_drop]
      rw [whole]
      by_cases longer : m.length < data.length
      · rw [if_pos longer, whole_copy (by omega), Checked.ok_bind, whole_read longer,
          Checked.ok_bind, decide_eq_true longer, Bool.true_and]
        change (if (data.take m.length == m && byteAt data m.length == 32) = true then _ else _) = _
        cases found : (data.take m.length == m && byteAt data m.length == 32) with
        | true =>
            rw [if_pos rfl, Bool.true_or]
            rfl
        | false =>
            rw [if_neg Bool.false_ne_true, Bool.false_or]
            exact ih
      · rw [if_neg longer, decide_eq_false longer, Bool.false_and, Bool.false_or]
        exact ih

theorem looksLikeHttp_ok (data : List UInt8) :
    Checked.looksLikeHttp data = .ok (looksLikeHttp data) := by
  rw [Checked.looksLikeHttp, looksLikeHttp]
  by_cases short : data.length < 4
  · rw [if_pos short, if_pos short]
    rfl
  · rw [if_neg short, if_neg short, startsWithMethod_ok, Checked.ok_bind]
    cases kMethods.any fun m => (m ++ [32]).isPrefixOf data with
    | true => rfl
    | false =>
        rw [if_neg Bool.false_ne_true, startsWith_ok (Nat.le_refl _), List.take_length,
          Bool.false_or]

/-- The loop for the empty line finds the first one. -/
theorem findHeaderEnd_ok {len passes i : Nat} (inside : len ≤ data.length)
    (enough : len - i < passes) :
    Checked.findHeaderEnd data len passes i =
      .ok ((List.range' i (len - 3 - i)).find? fun i =>
        (crlf ++ crlf).isPrefixOf ((data.take len).drop i)) := by
  induction passes generalizing i with
  | zero => exact absurd enough (Nat.not_lt_zero _)
  | succ passes ih =>
      rw [Checked.findHeaderEnd]
      by_cases more : i + 3 < len
      · have count : len - 3 - i = (len - 3 - (i + 1)) + 1 := by omega
        have same : (slice data i 4 == crlf ++ crlf) =
            (crlf ++ crlf).isPrefixOf ((data.take len).drop i) := by
          have four : (crlf ++ crlf).length = 4 := rfl
          rw [List.drop_take, isPrefixOf_take, four, decide_eq_true (by omega), Bool.true_and]
          rfl
        rw [if_pos more, whole_copy (by omega), Checked.ok_bind, count, List.range'_succ, same]
        cases found : (crlf ++ crlf).isPrefixOf ((data.take len).drop i) with
        | true =>
            rw [if_pos rfl, List.find?_cons_of_pos (by exact found)]
            rfl
        | false =>
            rw [if_neg Bool.false_ne_true, ih (by omega),
              List.find?_cons_of_neg (by rw [found]; exact Bool.false_ne_true)]
      · have none : len - 3 - i = 0 := by omega
        rw [if_neg more, none]
        rfl

/-- The loop for the first CR finds it, or stops at the end of the header. -/
theorem lineLength_ok {hdrEnd passes i : Nat} (inside : hdrEnd ≤ data.length)
    (reached : i ≤ hdrEnd) (enough : hdrEnd - i < passes) :
    Checked.lineLength data hdrEnd passes i =
      .ok (i + (startLine ((data.take hdrEnd).drop i)).length) := by
  induction passes generalizing i with
  | zero => exact absurd enough (Nat.not_lt_zero _)
  | succ passes ih =>
      rw [Checked.lineLength]
      have length : (data.take hdrEnd).length = hdrEnd := by
        rw [List.length_take, Nat.min_eq_left inside]
      by_cases more : i < hdrEnd
      · have there : i < (data.take hdrEnd).length := by omega
        have byte : (data.take hdrEnd)[i] = byteAt data i := by
          rw [List.getElem_take, byteAt, List.getD_eq_getElem]
        rw [if_pos more, whole_read (by omega), Checked.ok_bind, List.drop_eq_getElem_cons there,
          byte, startLine, List.takeWhile_cons]
        by_cases ends : byteAt data i = 13
        · rw [if_pos ends, ends]
          rfl
        · have goes : (byteAt data i != 13) = true := bne_iff_ne.2 ends
          rw [if_neg ends, @ih (i + 1) more (by omega), if_pos goes, List.length_cons, startLine]
          congr 1
          omega
      · have last : i = hdrEnd := by omega
        rw [if_neg more, last, List.drop_of_length_le (by omega)]
        rfl

theorem startLine_eq_take (text : List UInt8) :
    startLine text = text.take (startLine text).length := by
  have split := List.takeWhile_append_dropWhile (p := fun byte : UInt8 => byte != 13) (l := text)
  calc startLine text
      = (startLine text ++ text.dropWhile fun byte => byte != 13).take (startLine text).length :=
        List.take_left.symm
    _ = text.take (startLine text).length := congrArg _ split

end Scans

section Lines

variable {m : HttpView}

theorem substr_ok {pos count : Nat} (there : pos ≤ sl.length) :
    Checked.substr sl pos count = .ok ((sl.drop pos).take count) :=
  if_pos there

/-- A part of what stands in the input stands there. -/
theorem DrawnFrom.part (drawn : DrawnFrom data sl) (pos count : Nat) :
    DrawnFrom data ((sl.drop pos).take count) := by
  obtain ⟨view, inside, rfl⟩ := drawn
  by_cases there : pos ≤ view.length
  · have length := View.length_bytes inside
    have part : pos + min count (view.length - pos) ≤ view.length := by omega
    refine ⟨⟨view.start + pos, min count (view.length - pos)⟩,
      (View.part_within part).inside inside, ?_⟩
    rw [View.bytes_part part]
    apply List.take_eq_take_iff.2
    rw [List.length_drop, length]
    omega
  · have length := View.length_bytes inside
    rw [List.drop_of_length_le (by omega), List.take_nil]
    exact drawnFrom_nil

/-- The strings of a message stand in the input. -/
structure HttpDrawn (data : List UInt8) (m : HttpView) : Prop where
  method : DrawnFrom data m.method
  uri : DrawnFrom data m.uri
  version : DrawnFrom data m.version

theorem space_past_slash (slash : httpSlash.isPrefixOf sl = true) {sp1 : Nat}
    (found : sl.idxOf? 32 = some sp1) : 5 ≤ sp1 := by
  obtain ⟨rest, rfl⟩ := List.isPrefixOf_iff_prefix.1 slash
  obtain ⟨inside, space, _⟩ := List.idxOf?_eq_some_iff.1 found
  by_contra early
  have front : sp1 < httpSlash.length := by
    change sp1 < 5
    omega
  rw [List.getElem_append_left front] at space
  have none : ∀ byte ∈ httpSlash, byte ≠ 32 := by decide
  exact none _ (List.getElem_mem front) space

theorem readStatusLine_ok (slash : httpSlash.isPrefixOf sl = true) (drawn : DrawnFrom data sl)
    (kept : HttpDrawn data m) (fine : m.error = .ok) :
    ∃ after, Checked.readStatusLine sl m = .ok after ∧ after.error = parseStatusLine sl ∧
      after.isRequest = m.isRequest ∧ after.method = m.method ∧ after.uri = m.uri ∧
      after.consumed = m.consumed ∧ after.headerBlock = m.headerBlock ∧ HttpDrawn data after := by
  rw [Checked.readStatusLine, parseStatusLine]
  cases found : sl.idxOf? 32 with
  | none => exact ⟨_, rfl, rfl, rfl, rfl, rfl, rfl, rfl, kept.method, kept.uri, kept.version⟩
  | some sp1 =>
      have past := space_past_slash slash found
      dsimp only
      by_cases short : sl.length < sp1 + 4
      · rw [if_pos short, if_pos short]
        exact ⟨_, rfl, rfl, rfl, rfl, rfl, rfl, rfl, kept.method, kept.uri, kept.version⟩
      · rw [if_neg short, if_neg short, checkedSub_ok past, Checked.ok_bind,
          substr_ok (by omega), Checked.ok_bind, substr_ok (by omega), Checked.ok_bind]
        exact ⟨_, rfl, fine, rfl, rfl, rfl, rfl, rfl, kept.method, kept.uri, drawn.part 5 _⟩

theorem spaces_apart {sp1 sp2 : Nat} (first : sl.idxOf? 32 = some sp1)
    (last : lastIdxOf 32 sl = some sp2) (apart : sp2 ≠ sp1) : sp1 < sp2 ∧ sp2 < sl.length := by
  obtain ⟨behind, found, rfl⟩ := Option.map_eq_some_iff.1 last
  obtain ⟨inside, space, _⟩ := List.idxOf?_eq_some_iff.1 found
  obtain ⟨_, _, none⟩ := List.idxOf?_eq_some_iff.1 first
  rw [List.length_reverse] at inside
  rw [List.getElem_reverse] at space
  have within : sl.length - 1 - behind < sl.length := by omega
  refine ⟨?_, within⟩
  by_contra early
  exact none _ (by omega) space

theorem readRequestLine_ok (drawn : DrawnFrom data sl) (kept : HttpDrawn data m)
    (fine : m.error = .ok) :
    ∃ after, Checked.readRequestLine sl m = .ok after ∧ after.error = (parseRequestLine sl).1 ∧
      after.isRequest = m.isRequest ∧
      (after.error = .ok → after.method = (parseRequestLine sl).2.1 ∧
        after.uri = (parseRequestLine sl).2.2) ∧
      after.consumed = m.consumed ∧ after.headerBlock = m.headerBlock ∧ HttpDrawn data after := by
  rw [Checked.readRequestLine, parseRequestLine]
  cases first : sl.idxOf? 32 with
  | none =>
      exact ⟨_, rfl, rfl, rfl, (fun bad => nomatch bad), rfl, rfl, kept.method, kept.uri,
        kept.version⟩
  | some sp1 =>
      cases last : lastIdxOf 32 sl with
      | none =>
          exact ⟨_, rfl, rfl, rfl, (fun bad => nomatch bad), rfl, rfl, kept.method, kept.uri,
            kept.version⟩
      | some sp2 =>
          dsimp only
          by_cases same : sp2 = sp1
          · rw [if_pos same, if_pos same]
            exact ⟨_, rfl, rfl, rfl, (fun bad => nomatch bad), rfl, rfl, kept.method, kept.uri,
              kept.version⟩
          · obtain ⟨apart, within⟩ := spaces_apart first last same
            rw [if_neg same, if_neg same, substr_ok (Nat.zero_le _), Checked.ok_bind,
              checkedSub_ok (Nat.le_of_lt apart), Checked.ok_bind, checkedSub_ok (by omega),
              Checked.ok_bind, substr_ok (by omega), Checked.ok_bind, substr_ok (by omega),
              Checked.ok_bind]
            have rest : (sl.drop (sp2 + 1)).take sl.length = sl.drop (sp2 + 1) := by
              apply List.take_of_length_le
              rw [List.length_drop]
              omega
            have parts : HttpDrawn data { m with
                method := (sl.drop 0).take sp1
                uri := (sl.drop (sp1 + 1)).take (sp2 - sp1 - 1)
                version := (sl.drop (sp2 + 1)).take sl.length } :=
              ⟨drawn.part 0 _, drawn.part _ _, drawn.part _ _⟩
            have stays := fun error : HttpError =>
              (⟨parts.method, parts.uri, parts.version⟩ : HttpDrawn data { m with
                method := (sl.drop 0).take sp1
                uri := (sl.drop (sp1 + 1)).take (sp2 - sp1 - 1)
                version := (sl.drop (sp2 + 1)).take sl.length
                error })
            rw [rest] at stays parts ⊢
            by_cases other : httpSlash.isPrefixOf (sl.drop (sp2 + 1)) = false
            · rw [if_pos other, if_pos other]
              exact ⟨_, rfl, rfl, rfl, (fun bad => nomatch bad), rfl, rfl, stays _⟩
            · rw [if_neg other, if_neg other]
              have uri : (sl.drop (sp1 + 1)).take (sp2 - sp1 - 1) =
                  slice sl (sp1 + 1) (sp2 - sp1 - 1) := rfl
              rw [uri] at stays parts ⊢
              by_cases long : httpMaxUri < (slice sl (sp1 + 1) (sp2 - sp1 - 1)).length
              · rw [if_pos long, if_pos long]
                exact ⟨_, rfl, rfl, rfl, (fun bad => nomatch bad), rfl, rfl, stays _⟩
              · rw [if_neg long, if_neg long]
                exact ⟨_, rfl, fine, rfl, fun _ => ⟨rfl, rfl⟩, rfl, rfl, parts⟩

end Lines

section Message

/-- A result with its slices and its count within the input. -/
def HttpStandsFor (data : List UInt8) (result : Checked HttpView) (expected : HttpMessage) : Prop :=
  ∃ m, result = .ok m ∧ m.message data = expected ∧ HttpDrawn data m ∧
    (∀ block ∈ m.headerBlock, block.Inside data.length) ∧ m.consumed ≤ data.length

/-- The block of headers, behind a start line that was read. -/
def readBlock (lineLen hdrEnd : Nat) (m : HttpView) : Checked HttpView :=
  if m.error ≠ .ok then return m
  else
    let blockOff := lineLen + 2
    if blockOff ≤ hdrEnd then do
      let blockLen ← checkedSub hdrEnd blockOff
      return { m with headerBlock := some ⟨blockOff, blockLen⟩ }
    else return m

theorem readBlock_ok {lineLen hdrEnd : Nat} {m : HttpView} (inside : hdrEnd + 4 ≤ data.length)
    (consumed : m.consumed = hdrEnd + 4) (noBlock : m.headerBlock = none)
    (drawn : HttpDrawn data m) :
    HttpStandsFor data (readBlock lineLen hdrEnd m)
      (if m.error = .ok then
        ⟨m.isRequest, m.method, m.uri,
          if lineLen + 2 ≤ hdrEnd then some (slice data (lineLen + 2) (hdrEnd - (lineLen + 2)))
          else none, hdrEnd + 4, .ok⟩
      else .failed (hdrEnd + 4) m.error) := by
  have blockless : ∀ block ∈ m.headerBlock, block.Inside data.length := by
    intro block member
    rw [noBlock] at member
    cases member
  rw [readBlock]
  by_cases bad : m.error ≠ .ok
  · rw [if_pos bad, if_neg bad]
    refine ⟨m, rfl, ?_, drawn, blockless, consumed ▸ inside⟩
    rw [HttpView.message, if_neg bad, consumed]
  · rw [if_neg bad]
    rw [ne_eq, not_not] at bad
    rw [if_pos bad]
    dsimp only
    by_cases some : lineLen + 2 ≤ hdrEnd
    · rw [if_pos some, if_pos some, checkedSub_ok some, Checked.ok_bind]
      refine ⟨_, rfl, ?_, ⟨drawn.method, drawn.uri, drawn.version⟩, ?_, consumed ▸ inside⟩
      · rw [HttpView.message, if_pos bad, consumed]
        rfl
      · intro block member
        obtain rfl := Option.some.inj member
        change lineLen + 2 + (hdrEnd - (lineLen + 2)) ≤ data.length
        omega
    · rw [if_neg some, if_neg some]
      refine ⟨m, rfl, ?_, drawn, blockless, consumed ▸ inside⟩
      rw [HttpView.message, if_pos bad, consumed, noBlock]
      rfl

theorem httpLen (data : List UInt8) :
    (if httpMaxHeader < data.length then httpMaxHeader else data.length) =
      (data.take httpMaxHeader).length := by
  rw [List.length_take]
  by_cases longer : httpMaxHeader < data.length
  · rw [if_pos longer]
    omega
  · rw [if_neg longer]
    omega

theorem slice_take {length off count : Nat} (inside : off + count ≤ length) :
    slice (data.take length) off count = slice data off count := by
  rw [slice, slice, List.drop_take, List.take_take, Nat.min_eq_left (by omega)]

theorem findHeaderEnd_inside {text : List UInt8} {hdrEnd : Nat}
    (found : findHeaderEnd text = some hdrEnd) : hdrEnd + 4 ≤ text.length := by
  have member := List.mem_of_find?_eq_some found
  have below := List.mem_range.1 member
  omega

theorem startLine_front (data : List UInt8) (hdrEnd : Nat) :
    startLine (data.take hdrEnd) =
      data.take (startLine (data.take hdrEnd)).length := by
  have before : (startLine (data.take hdrEnd)).length ≤ hdrEnd := by
    have whole := (List.takeWhile_sublist (fun byte : UInt8 => byte != 13)
      (l := data.take hdrEnd)).length_le
    have bound := List.length_take_le hdrEnd data
    change ((data.take hdrEnd).takeWhile fun byte => byte != 13).length ≤ hdrEnd
    omega
  calc startLine (data.take hdrEnd)
      = (data.take hdrEnd).take (startLine (data.take hdrEnd)).length := startLine_eq_take _
    _ = data.take (startLine (data.take hdrEnd)).length := by
        rw [List.take_take, Nat.min_eq_left before]

theorem checked_parseHttp (data : List UInt8) :
    HttpStandsFor data (Checked.parseHttp data) (parseHttp data) := by
  have refused : ∀ error, error ≠ .ok →
      HttpStandsFor data (.ok { HttpView.empty with error }) (.failed 0 error) := by
    intro error bad
    refine ⟨_, rfl, if_neg bad, ⟨drawnFrom_nil, drawnFrom_nil, drawnFrom_nil⟩, ?_, Nat.zero_le _⟩
    intro block member
    cases member
  rw [Checked.parseHttp, parseHttp, looksLikeHttp_ok, Checked.ok_bind]
  cases looks : looksLikeHttp data with
  | false => exact refused .notHttp (by decide)
  | true =>
      have accepted : ¬ (!true) = true := Bool.false_ne_true
      have likely : ¬ true = false := fun same => Bool.false_ne_true same.symm
      have short : (data.take httpMaxHeader).length ≤ data.length := List.length_take_le' _ _
      have front : data.take (data.take httpMaxHeader).length = data.take httpMaxHeader := by
        rw [List.length_take, List.take_eq_take_iff]
        omega
      rw [if_neg accepted, if_neg likely]
      dsimp only
      rw [httpLen, findHeaderEnd_ok short (by omega), Checked.ok_bind, front]
      have search : (List.range' 0 ((data.take httpMaxHeader).length - 3 - 0)).find? (fun i =>
          (crlf ++ crlf).isPrefixOf ((data.take httpMaxHeader).drop i)) =
            findHeaderEnd (data.take httpMaxHeader) := by
        rw [findHeaderEnd, List.range_eq_range', Nat.sub_zero]
      rw [search]
      cases found : findHeaderEnd (data.take httpMaxHeader) with
      | none => exact refused .incomplete (by decide)
      | some hdrEnd =>
          have header := findHeaderEnd_inside found
          have inside : hdrEnd + 4 ≤ data.length := by omega
          have stays : (data.take httpMaxHeader).take hdrEnd = data.take hdrEnd := by
            rw [List.take_take, Nat.min_eq_left]
            have bound := List.length_take_le httpMaxHeader data
            omega
          have block : ∀ off, off ≤ hdrEnd →
              slice (data.take httpMaxHeader) off (hdrEnd - off) =
                slice data off (hdrEnd - off) := by
            intro off before
            apply slice_take
            have bound := List.length_take_le httpMaxHeader data
            omega
          dsimp only
          rw [stays]
          rw [lineLength_ok (by omega) (Nat.zero_le _) (by omega), Checked.ok_bind, Nat.zero_add,
            List.drop_zero]
          have front := startLine_front data hdrEnd
          generalize startLine (data.take hdrEnd) = line at front ⊢
          have within : line.length ≤ data.length := by
            rw [front, List.length_take]
            exact Nat.min_le_right _ _
          have copied : slice data 0 line.length = line := front.symm
          have drawn : DrawnFrom data line := by
            rw [← copied]
            exact drawnFrom_slice (by omega)
          rw [whole_copy (by omega), Checked.ok_bind, copied, startsWith_ok within, ← front,
            Checked.ok_bind]
          have sameBlock : (if line.length + 2 ≤ hdrEnd then
                some (slice (data.take httpMaxHeader) (line.length + 2) (hdrEnd - (line.length + 2)))
              else none) =
              if line.length + 2 ≤ hdrEnd then
                some (slice data (line.length + 2) (hdrEnd - (line.length + 2)))
              else none := by
            by_cases before : line.length + 2 ≤ hdrEnd
            · rw [if_pos before, if_pos before, block _ before]
            · rw [if_neg before, if_neg before]
          cases slash : httpSlash.isPrefixOf line with
          | true =>
              obtain ⟨after, read, error, request, method, uri, consumed, noBlock, parts⟩ :=
                @readStatusLine_ok data line
                  { HttpView.empty with consumed := hdrEnd + 4, isResponse := true } slash drawn
                  ⟨drawnFrom_nil, drawnFrom_nil, drawnFrom_nil⟩ rfl
              have result := @readBlock_ok data line.length hdrEnd after inside consumed noBlock
                parts
              rw [request, method, uri, error] at result
              rw [if_pos rfl, read, Checked.ok_bind, if_pos rfl, sameBlock]
              exact result
          | false =>
              obtain ⟨after, read, error, request, texts, consumed, noBlock, parts⟩ :=
                @readRequestLine_ok data line
                  { HttpView.empty with consumed := hdrEnd + 4, isRequest := true } drawn
                  ⟨drawnFrom_nil, drawnFrom_nil, drawnFrom_nil⟩ rfl
              have result := @readBlock_ok data line.length hdrEnd after inside consumed noBlock
                parts
              rw [if_neg Bool.false_ne_true, read, Checked.ok_bind, if_neg Bool.false_ne_true,
                sameBlock]
              cases split : parseRequestLine line with
              | mk verdict names =>
                  rw [split] at error texts
                  by_cases fine : after.error = .ok
                  · rw [if_pos fine, request, (texts fine).1, (texts fine).2] at result
                    dsimp only
                    rw [if_pos (error.symm.trans fine)]
                    exact result
                  · rw [if_neg fine, error] at result
                    dsimp only
                    rw [if_neg fun same => fine (error.trans same)]
                    exact result

end Message

section Parsers

/-- Every parser ends without a fault and with its result, of views inside the input. -/
theorem application_parser_bounds (md5Hex : String → String) (data : List UInt8) :
    (Checked.parseDns data = .ok (parseDns data) ∧ Labelled data (parseDns data).qname) ∧
    (Checked.parseTlsClientHello data md5Hex = .ok (Tls.parseTlsClientHello md5Hex data) ∧
      HelloDrawn data (Tls.parseTlsClientHello md5Hex data)) ∧
    (∃ i, Checked.parseSomeip data = .ok i ∧ i.info data = parseSomeip data ∧
      i.payload.Inside data.length) ∧
    Checked.parseSdEntries data = .ok (parseSdEntries data) ∧
    (Checked.looksLikeHttp data = .ok (looksLikeHttp data) ∧
      HttpStandsFor data (Checked.parseHttp data) (parseHttp data)) ∧
    ∃ i, Checked.parseDoip data = .ok i ∧ i.info = parseDoip data ∧
      i.payload.Inside data.length :=
  ⟨⟨checked_parseDns data, labelled_qname data⟩, checked_parseTlsClientHello md5Hex data,
    checked_parseSomeip data, checked_parseSdEntries data,
    ⟨looksLikeHttp_ok data, checked_parseHttp data⟩, checked_parseDoip data⟩

end Parsers

end Idsm.EthProbe
