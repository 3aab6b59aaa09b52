import Idsm.Foundation.Execution
import Idsm.HostProbe.Baseline

/-! The file baseline holds what `sha256sum` wrote exactly when every line is in the text mode
and no path has a comment mark or blanks at an end. -/

set_option autoImplicit false

namespace Idsm.HostProbe

open Idsm.Foundation

section Texts

variable {mark : UInt8} {front rest : List UInt8}

theorem cutAt_append (absent : mark ∉ front) (rest : List UInt8) :
    (cutAt mark (front ++ rest)).1 = front ++ (cutAt mark rest).1 := by
  induction front with
  | nil => rfl
  | cons byte front ih =>
      obtain ⟨other, absent⟩ := List.ne_and_not_mem_of_not_mem_cons absent
      rw [List.cons_append, cutAt, if_neg (Ne.symm other)]
      exact congrArg (byte :: ·) (ih absent)

theorem not_mem_cutAt (mark : UInt8) (text : List UInt8) : mark ∉ (cutAt mark text).1 := by
  induction text with
  | nil => exact List.not_mem_nil
  | cons byte text ih =>
      rw [cutAt]
      split
      next => exact List.not_mem_nil
      next other =>
        rw [List.mem_cons, not_or]
        exact ⟨fun same => other same.symm, ih⟩

theorem rdropWhile_append {p : UInt8 → Bool} (front rest : List UInt8) :
    (front ++ rest).rdropWhile p =
      if rest.rdropWhile p = [] then front.rdropWhile p else front ++ rest.rdropWhile p := by
  simp only [List.rdropWhile, List.reverse_append, List.dropWhile_append, List.isEmpty_iff,
    List.reverse_eq_nil_iff]
  split
  next => rfl
  next => rw [List.reverse_append, List.reverse_reverse]

theorem fields_unlines {lines : List (List UInt8)} (oneLine : ∀ line ∈ lines, mark ∉ line) :
    fields mark (lines.flatMap (· ++ [mark])) = lines := by
  have pieces : (lines.flatMap (· ++ [mark])).splitOn mark = lines ++ [[]] := by
    induction lines with
    | nil => rfl
    | cons line lines ih =>
        obtain ⟨here, later⟩ := List.forall_mem_cons.mp oneLine
        rw [List.flatMap_cons, List.append_assoc, List.singleton_append,
          List.splitOn_append_cons_self_of_not_mem here, ih later, List.cons_append]
  rw [fields, pieces]
  simp

end Texts

section Digests

variable {digest : List UInt8}

theorem digitValue_hexDigit {value : Nat} (small : value < 16) :
    digitValue (hexDigit value) = some value := by
  have all : ∀ value < 16, digitValue (hexDigit value) = some value := by decide
  exact all value small

theorem hexDigit_plain {value : Nat} (small : value < 16) :
    hexDigit value ≠ 35 ∧ isTrimmed (hexDigit value) = false ∧ hexDigit value ≠ 10 := by
  have all : ∀ value < 16, hexDigit value ≠ 35 ∧ isTrimmed (hexDigit value) = false ∧
      hexDigit value ≠ 10 := by
    decide
  exact all value small

theorem mem_sha256Hex {byte : UInt8} (member : byte ∈ sha256Hex digest) :
    ∃ value < 16, byte = hexDigit value := by
  obtain ⟨source, _, digits⟩ := List.mem_flatMap.mp member
  have small := source.toNat_lt
  rcases List.mem_cons.mp digits with rfl | low
  · exact ⟨_, by omega, rfl⟩
  · obtain rfl := List.mem_singleton.mp low
    exact ⟨_, Nat.mod_lt _ (by decide), rfl⟩

theorem length_sha256Hex (digest : List UInt8) :
    (sha256Hex digest).length = 2 * digest.length := by
  induction digest with
  | nil => rfl
  | cons byte digest ih =>
      rw [sha256Hex, List.flatMap_cons, List.length_append, ← sha256Hex, ih]
      simp only [List.length_cons, List.length_nil]
      omega

theorem hexBytes_sha256Hex (digest : List UInt8) : hexBytes (sha256Hex digest) = some digest := by
  induction digest with
  | nil => rfl
  | cons byte digest ih =>
      have small := byte.toNat_lt
      have whole : UInt8.ofNat (byte.toNat / 16 * 16 + byte.toNat % 16) = byte := by
        rw [Nat.div_add_mod']
        exact UInt8.ofNat_toNat
      change hexBytes (hexDigit _ :: hexDigit _ :: sha256Hex digest) = _
      rw [hexBytes, digitValue_hexDigit (by omega), digitValue_hexDigit (Nat.mod_lt _ (by decide)),
        ih]
      simp only [Option.bind_eq_bind, Option.bind_some, whole]
      rfl

end Digests

section Entries

/-- The path that the line of an entry is loaded under, when it is. -/
def SumEntry.loadedKey (entry : SumEntry) : Option (List UInt8) :=
  let path := (cutAt 35 entry.path).1.rdropWhile isTrimmed
  if entry.binary then some (42 :: path)
  else if path = [] then none
  else some (path.dropWhile isBlank)

/-- A path without a comment mark and without a blank at an end. -/
structure Tidy (path : List UInt8) : Prop where
  noComment : 35 ∉ path
  start : ∀ byte ∈ path.head?, isBlank byte = false
  ending : ∀ byte ∈ path.getLast?, isBlank byte = false

/-- An entry whose line is read as it was written. -/
structure SumEntry.Plain (entry : SumEntry) : Prop where
  textMode : entry.binary = false
  tidy : Tidy entry.path

variable {entry other : SumEntry} {key : List UInt8}

theorem isTrimmed_of_isBlank {byte : UInt8} (blank : isBlank byte = true) :
    isTrimmed byte = true := by
  rw [isTrimmed, ← isBlank, blank]
  rfl

theorem isBlank_of_isTrimmed {byte : UInt8} (trimmed : isTrimmed byte = true) (noReturn : byte ≠ 13) :
    isBlank byte = true := by
  rw [isTrimmed, ← isBlank, Bool.or_eq_true, beq_iff_eq] at trimmed
  exact trimmed.resolve_right noReturn

theorem sha256Hex_plain (digest : List UInt8) : 35 ∉ sha256Hex digest ∧ 10 ∉ sha256Hex digest ∧
    ∀ byte ∈ sha256Hex digest, isTrimmed byte = false := by
  refine ⟨fun member => ?_, fun member => ?_, fun byte member => ?_⟩
  · obtain ⟨value, small, same⟩ := mem_sha256Hex member
    exact (hexDigit_plain small).1 same.symm
  · obtain ⟨value, small, same⟩ := mem_sha256Hex member
    exact (hexDigit_plain small).2.2 same.symm
  · obtain ⟨value, small, rfl⟩ := mem_sha256Hex member
    exact (hexDigit_plain small).2.1

theorem SumEntry.hex_length (entry : SumEntry) : (sha256Hex entry.digest).length = 64 := by
  rw [length_sha256Hex, entry.size]

/-- What is left of a line is its digest, the mode and the trimmed path, or the digest alone. -/
theorem SumEntry.cleanLine_line (entry : SumEntry) : cleanLine entry.line =
    if entry.binary = false ∧ (cutAt 35 entry.path).1.rdropWhile isTrimmed = [] then
      sha256Hex entry.digest
    else sha256Hex entry.digest ++ 32 :: (if entry.binary then 42 else 32) ::
      (cutAt 35 entry.path).1.rdropWhile isTrimmed := by
  obtain ⟨noComment, _, plain⟩ := sha256Hex_plain entry.digest
  obtain ⟨first, others, hex⟩ := List.exists_cons_of_length_pos
    (show 0 < (sha256Hex entry.digest).length by rw [entry.hex_length]; decide)
  have cut : (cutAt 35 entry.line).1 = sha256Hex entry.digest ++
      32 :: (if entry.binary then 42 else 32) :: (cutAt 35 entry.path).1 := by
    have mode : (35 : UInt8) ≠ if entry.binary then 42 else 32 := by
      cases entry.binary with
      | true => decide
      | false => decide
    have marks : 35 ∉ sha256Hex entry.digest ++ [32, if entry.binary then 42 else 32] := by
      simp only [List.mem_append, List.mem_cons, List.not_mem_nil, or_false, not_or]
      exact ⟨noComment, by decide, mode⟩
    have whole := cutAt_append marks entry.path
    rw [List.append_assoc, List.append_assoc] at whole
    exact whole
  have start : (sha256Hex entry.digest ++ 32 :: (if entry.binary then 42 else 32) ::
      (cutAt 35 entry.path).1).dropWhile isTrimmed = sha256Hex entry.digest ++
        32 :: (if entry.binary then 42 else 32) :: (cutAt 35 entry.path).1 := by
    rw [hex, List.cons_append, List.dropWhile_cons_of_neg]
    have byte := plain first (by rw [hex]; exact List.mem_cons_self)
    simp [byte]
  have kept : (sha256Hex entry.digest).rdropWhile isTrimmed = sha256Hex entry.digest := by
    apply List.rdropWhile_eq_self_iff.mpr
    intro some
    simp [plain _ (List.getLast_mem some)]
  have split : ∀ mode : UInt8, sha256Hex entry.digest ++ 32 :: mode :: (cutAt 35 entry.path).1 =
      (sha256Hex entry.digest ++ [32, mode]) ++ (cutAt 35 entry.path).1 := by
    intro mode
    rw [List.append_assoc]
    rfl
  rw [cleanLine, cut, start, split, rdropWhile_append]
  cases mode : entry.binary with
  | true =>
      have marker : (sha256Hex entry.digest ++ [32, 42]).rdropWhile isTrimmed =
          sha256Hex entry.digest ++ [32, 42] := by
        rw [rdropWhile_append]
        rfl
      simp only [if_true, marker, Bool.true_eq_false, false_and, if_false]
      split
      next none => rw [none]
      next => rw [List.append_assoc]; rfl
  | false =>
      have marker : (sha256Hex entry.digest ++ [32, 32]).rdropWhile isTrimmed =
          sha256Hex entry.digest := by
        rw [rdropWhile_append, if_pos (by decide), kept]
      simp only [Bool.false_eq_true, if_false, marker, true_and]
      split
      next => rfl
      next => rw [List.append_assoc]; rfl

theorem load_cleaned {digest line more : List UInt8} (out : FileBaseline)
    (size : digest.length = 32) (cleaned : cleanLine line = sha256Hex digest ++ 32 :: more)
    (some : more ≠ []) {first : UInt8} {path : List UInt8}
    (behind : more.dropWhile isBlank = first :: path) :
    loadBaselineLine out line = (putDigest (first :: path) digest out, false) := by
  have length : (sha256Hex digest).length = 64 := by rw [length_sha256Hex, size]
  have more_pos := List.length_pos_iff.mpr some
  have long : ¬ (sha256Hex digest ++ 32 :: more).length < 66 := by
    rw [List.length_append, List.length_cons]
    omega
  have hex : (sha256Hex digest ++ 32 :: more).take 64 = sha256Hex digest := by
    rw [← length, List.take_left]
  have rest : (sha256Hex digest ++ 32 :: more).drop 64 = 32 :: more := by
    rw [← length, List.drop_left]
  have read : sha256FromHex (sha256Hex digest) = .some digest := by
    rw [sha256FromHex, if_pos length, hexBytes_sha256Hex]
  have blanks : (32 :: more).dropWhile (fun byte => !isBlank byte) = 32 :: more := rfl
  have name : (32 :: more).dropWhile isBlank = first :: path := behind
  rw [loadBaselineLine, cleaned]
  simp only [List.append_eq_nil_iff, reduceCtorEq, and_false, if_false, long, hex, read, rest,
    blanks, name]

/-- A line is loaded under its key, or bad. -/
theorem SumEntry.load_line (entry : SumEntry) (out : FileBaseline) :
    loadBaselineLine out entry.line =
      match entry.loadedKey with
      | none => (out, true)
      | some key => (putDigest key entry.digest out, false) := by
  have cleaned := entry.cleanLine_line
  rw [SumEntry.loadedKey]
  generalize (cutAt 35 entry.path).1 = path at cleaned ⊢
  cases mode : entry.binary with
  | true =>
      rw [mode, if_neg (fun both => nomatch both.1)] at cleaned
      exact load_cleaned out entry.size cleaned (List.cons_ne_nil _ _) rfl
  | false =>
      by_cases none : path.rdropWhile isTrimmed = []
      · rw [mode, if_pos ⟨rfl, none⟩] at cleaned
        have length := entry.hex_length
        have nonempty : sha256Hex entry.digest ≠ [] := by
          intro none
          rw [none] at length
          exact nomatch length
        simp only [Bool.false_eq_true, if_false, if_pos none]
        rw [loadBaselineLine, cleaned]
        simp only [nonempty, length, if_false, Nat.reduceLT, if_true]
      · rw [mode, if_neg (fun both => none both.2)] at cleaned
        have last : ∃ byte ∈ path.rdropWhile isTrimmed, isBlank byte = false := by
          refine ⟨_, List.getLast_mem none, ?_⟩
          cases blank : isBlank ((path.rdropWhile isTrimmed).getLast none) with
          | false => rfl
          | true => exact absurd (isTrimmed_of_isBlank blank) (List.rdropWhile_last_not _ _ none)
        have found : (path.rdropWhile isTrimmed).dropWhile isBlank ≠ [] := by
          obtain ⟨byte, member, plain⟩ := last
          intro gone
          rw [List.dropWhile_eq_nil_iff.mp gone byte member] at plain
          exact nomatch plain
        obtain ⟨first, rest, split⟩ := List.exists_cons_of_ne_nil found
        simp only [Bool.false_eq_true, if_false, if_neg none, split]
        exact load_cleaned out entry.size cleaned (List.cons_ne_nil _ _) split

theorem SumEntry.tidy_loadedKey (loaded : entry.loadedKey = some key) : Tidy key := by
  rw [SumEntry.loadedKey] at loaded
  have noComment := not_mem_cutAt 35 entry.path
  generalize (cutAt 35 entry.path).1 = path at loaded noComment
  have inner : 35 ∉ path.rdropWhile isTrimmed := fun member =>
    noComment ((List.rdropWhile_prefix isTrimmed path).subset member)
  have ending : ∀ byte ∈ (path.rdropWhile isTrimmed).getLast?, isBlank byte = false := by
    intro byte last
    obtain ⟨some, rfl⟩ := List.mem_getLast?_eq_getLast last
    cases blank : isBlank ((path.rdropWhile isTrimmed).getLast some) with
    | false => rfl
    | true => exact absurd (isTrimmed_of_isBlank blank) (List.rdropWhile_last_not _ _ some)
  cases mode : entry.binary with
  | true =>
      rw [mode, if_pos rfl] at loaded
      obtain rfl := Option.some.inj loaded
      refine ⟨?_, fun byte first => ?_, fun byte last => ?_⟩
      · rw [List.mem_cons, not_or]
        exact ⟨by decide, inner⟩
      · obtain rfl := Option.some.inj first
        rfl
      · cases tail : path.rdropWhile isTrimmed with
        | nil =>
            rw [tail] at last
            obtain rfl := Option.some.inj last
            rfl
        | cons first rest =>
            rw [tail, List.getLast?_cons_cons, ← tail] at last
            exact ending byte last
  | false =>
      rw [mode, if_neg Bool.false_ne_true] at loaded
      split at loaded
      next => exact nomatch loaded
      next =>
        obtain rfl := Option.some.inj loaded
        have suffix := List.dropWhile_suffix (l := path.rdropWhile isTrimmed) isBlank
        refine ⟨fun member => inner (suffix.subset member), fun byte first => ?_, fun byte last => ?_⟩
        · have stops := List.head?_dropWhile_not isBlank (path.rdropWhile isTrimmed)
          rw [Option.mem_def.mp first] at stops
          simpa using stops
        · obtain ⟨before, whole⟩ := suffix
          apply ending byte
          rw [← whole, List.getLast?_append, Option.mem_def.mp last]
          rfl

theorem SumEntry.loadedKey_tidy (tidy : Tidy entry.path) : entry.loadedKey =
    some (if entry.binary then 42 :: entry.path else entry.path) := by
  have whole : (cutAt 35 entry.path).1 = entry.path := by rw [cutAt_absent tidy.noComment]
  have kept : entry.path.rdropWhile isTrimmed = entry.path := by
    apply List.rdropWhile_eq_self_iff.mpr
    intro some trimmed
    have last := tidy.ending _ (List.getLast?_eq_some_getLast some)
    rw [isBlank_of_isTrimmed trimmed fun same =>
      entry.unescaped.2.1 (same ▸ List.getLast_mem some)] at last
    exact nomatch last
  have start : entry.path.dropWhile isBlank = entry.path := by
    obtain ⟨first, rest, split⟩ := List.exists_cons_of_ne_nil entry.nonempty
    have plain := tidy.start first (by rw [split]; rfl)
    rw [split, List.dropWhile_cons_of_neg (by simp [plain])]
  rw [SumEntry.loadedKey, whole, kept, start]
  cases entry.binary with
  | true => rfl
  | false => simp [entry.nonempty]

end Entries

section Files

variable {entries : List SumEntry} {path digest key : List UInt8} {out : FileBaseline}

theorem putDigest_new (fresh : key ∉ out.map Prod.fst) (digest : List UInt8) :
    putDigest key digest out = out ++ [(key, digest)] := by
  induction out with
  | nil => rfl
  | cons entry out ih =>
      obtain ⟨other, old⟩ := entry
      rw [List.map_cons, List.mem_cons, not_or] at fresh
      rw [putDigest, if_neg (Ne.symm fresh.1), ih fresh.2, List.cons_append]

theorem key_of_mem_putDigest {pair : List UInt8 × List UInt8}
    (member : pair ∈ putDigest key digest out) : pair.1 = key ∨ pair ∈ out := by
  induction out with
  | nil =>
      rw [List.mem_singleton.mp member]
      exact .inl rfl
  | cons entry out ih =>
      obtain ⟨other, old⟩ := entry
      rw [putDigest] at member
      split at member
      next =>
        rcases List.mem_cons.mp member with rfl | kept
        · exact .inl rfl
        · exact .inr (List.mem_cons_of_mem _ kept)
      next =>
        rcases List.mem_cons.mp member with rfl | inside
        · exact .inr List.mem_cons_self
        · exact (ih inside).imp id (List.mem_cons_of_mem _)

/-- The baseline and the count of bad lines after these entries. -/
def loadEntries (out : FileBaseline) (skipped : Nat) (entries : List SumEntry) :
    FileBaseline × Nat :=
  (entries.map SumEntry.line).foldl (fun (out, skipped) line =>
    let (out, bad) := loadBaselineLine out line
    (out, if bad then skipped + 1 else skipped)) (out, skipped)

theorem loadEntries_cons (out : FileBaseline) (skipped : Nat) (entry : SumEntry)
    (entries : List SumEntry) : loadEntries out skipped (entry :: entries) =
      match entry.loadedKey with
      | none => loadEntries out (skipped + 1) entries
      | some key => loadEntries (putDigest key entry.digest out) skipped entries := by
  rw [loadEntries, List.map_cons, List.foldl_cons]
  dsimp only
  rw [entry.load_line]
  cases entry.loadedKey with
  | none => rfl
  | some key => rfl

theorem loadFileBaseline_sumFile (entries : List SumEntry) :
    loadFileBaseline [] (some (sumFile entries)) = some (loadEntries [] 0 entries) := by
  have lines : fields 10 (sumFile entries) = entries.map SumEntry.line := by
    have oneLine : ∀ line ∈ entries.map SumEntry.line, 10 ∉ line := by
      intro line member
      obtain ⟨entry, _, rfl⟩ := List.mem_map.mp member
      simp only [SumEntry.line, List.mem_append, List.mem_cons, not_or]
      refine ⟨(sha256Hex_plain entry.digest).2.1, by decide, ?_, entry.unescaped.1⟩
      cases entry.binary with
      | true => decide
      | false => decide
    have whole := fields_unlines oneLine
    rwa [List.flatMap_map] at whole
  rw [loadFileBaseline, Option.map_some, lines]
  rfl

theorem loadEntries_plain (plain : ∀ entry ∈ entries, entry.Plain)
    (distinct : (entries.map SumEntry.path).Nodup)
    (fresh : ∀ entry ∈ entries, entry.path ∉ out.map Prod.fst) (skipped : Nat) :
    loadEntries out skipped entries =
      (out ++ entries.map fun entry => (entry.path, entry.digest), skipped) := by
  induction entries generalizing out with
  | nil =>
      rw [List.map_nil, List.append_nil]
      rfl
  | cons entry entries ih =>
      obtain ⟨here, later⟩ := List.forall_mem_cons.mp plain
      obtain ⟨new, others⟩ := List.forall_mem_cons.mp fresh
      obtain ⟨alone, apart⟩ := List.nodup_cons.mp distinct
      have key : entry.loadedKey = some entry.path := by
        rw [entry.loadedKey_tidy here.tidy, here.textMode]
        rfl
      rw [loadEntries_cons, key]
      dsimp only
      rw [putDigest_new new, ih later apart, List.map_cons, List.append_assoc]
      · rfl
      · intro other member
        rw [List.map_append, List.mem_append, not_or]
        refine ⟨others other member, fun same => alone ?_⟩
        rw [List.map_singleton, List.mem_singleton] at same
        dsimp only at same
        rw [← same]
        exact List.mem_map_of_mem member

theorem loadedKey_of_mem {pair : List UInt8 × List UInt8} {skipped : Nat}
    (member : pair ∈ (loadEntries out skipped entries).1) :
    pair ∈ out ∨ ∃ entry ∈ entries, entry.loadedKey = some pair.1 := by
  induction entries generalizing out skipped with
  | nil => exact .inl member
  | cons entry entries ih =>
      rw [loadEntries_cons] at member
      cases loaded : entry.loadedKey with
      | none =>
          rw [loaded] at member
          obtain before | ⟨other, inside, named⟩ := ih member
          · exact .inl before
          · exact .inr ⟨other, List.mem_cons_of_mem _ inside, named⟩
      | some key =>
          rw [loaded] at member
          obtain before | ⟨other, inside, named⟩ := ih member
          · obtain same | before := key_of_mem_putDigest before
            · exact .inr ⟨entry, List.mem_cons_self, by rw [loaded, same]⟩
            · exact .inl before
          · exact .inr ⟨other, List.mem_cons_of_mem _ inside, named⟩

/-- The file that `sha256sum` writes is loaded without a bad line, and as these pairs. -/
def Faithful (entries : List SumEntry) : Prop :=
  ∃ table, loadFileBaseline [] (some (sumFile entries)) = some (table, 0) ∧
    ∀ path digest, (path, digest) ∈ table ↔
      (path, digest) ∈ entries.map fun entry => (entry.path, entry.digest)

/-- In a set of paths that are all keys, no entry is binary: the path of the next one would be
shorter, without end. -/
theorem textMode_of_keys (distinct : (entries.map SumEntry.path).Nodup)
    (keys : ∀ entry ∈ entries, ∃ source ∈ entries, source.loadedKey = some entry.path)
    {entry : SumEntry} (member : entry ∈ entries) : entry.binary = false := by
  have tidy : ∀ entry ∈ entries, Tidy entry.path := by
    intro entry member
    obtain ⟨source, _, loaded⟩ := keys entry member
    exact source.tidy_loadedKey loaded
  induction length : entry.path.length using Nat.strong_induction_on generalizing entry with
  | _ size ih =>
      obtain ⟨source, listed, loaded⟩ := keys entry member
      rw [source.loadedKey_tidy (tidy source listed)] at loaded
      cases mode : source.binary with
      | false =>
          rw [mode] at loaded
          have same : source = entry :=
            List.inj_on_of_nodup_map distinct listed member (Option.some.inj loaded)
          rw [← same, mode]
      | true =>
          rw [mode] at loaded
          have longer := congrArg List.length (Option.some.inj loaded)
          simp only [if_true, List.length_cons] at longer
          have text := ih source.path.length (by omega) listed rfl
          rw [mode] at text
          exact nomatch text

theorem baseline_faithful_iff (distinct : (entries.map SumEntry.path).Nodup) :
    Faithful entries ↔ ∀ entry ∈ entries, entry.Plain := by
  constructor
  · rintro ⟨table, loaded, pairs⟩
    rw [loadFileBaseline_sumFile] at loaded
    have keys : ∀ entry ∈ entries, ∃ source ∈ entries, source.loadedKey = some entry.path := by
      intro entry member
      have inside := (pairs entry.path entry.digest).2 (List.mem_map_of_mem member)
      have same : (loadEntries [] 0 entries).1 = table := by rw [Option.some.inj loaded]
      rw [← same] at inside
      obtain impossible | found := loadedKey_of_mem inside
      · exact absurd impossible List.not_mem_nil
      · exact found
    intro entry member
    refine ⟨textMode_of_keys distinct keys member, ?_⟩
    obtain ⟨source, _, named⟩ := keys entry member
    exact source.tidy_loadedKey named
  · intro plain
    refine ⟨_, ?_, fun path digest => Iff.rfl⟩
    rw [loadFileBaseline_sumFile, loadEntries_plain plain distinct fun _ _ => List.not_mem_nil]
    rfl

def zeroDigest : List UInt8 := List.replicate 32 0

/-- `/a b`, written in the text mode. -/
def plainEntry : SumEntry where
  path := [47, 97, 32, 98]
  digest := zeroDigest
  binary := false
  nonempty := by decide
  unescaped := by decide
  size := rfl

/-- `/b`, written in the binary mode. -/
def binaryEntry : SumEntry where
  path := [47, 98]
  digest := zeroDigest
  binary := true
  nonempty := by decide
  unescaped := by decide
  size := rfl

theorem baseline_faithful_sample : Faithful [plainEntry] ∧ ¬ Faithful [plainEntry, binaryEntry] := by
  constructor
  · refine (baseline_faithful_iff (by decide)).2 fun entry member => ?_
    obtain rfl := List.mem_singleton.mp member
    exact ⟨rfl, by decide, by decide, by decide⟩
  · intro faithful
    have text := (baseline_faithful_iff (by decide)).1 faithful binaryEntry
      (List.mem_cons_of_mem _ List.mem_cons_self)
    exact nomatch text.textMode

/-- The marker of the binary mode becomes a part of the path. -/
theorem binary_entry_misread : ¬ Faithful [binaryEntry] := by
  rintro ⟨table, loaded, pairs⟩
  rw [loadFileBaseline_sumFile] at loaded
  have read : loadEntries [] 0 [binaryEntry] = ([([42, 47, 98], zeroDigest)], 0) := by
    rw [loadEntries_cons, binaryEntry.loadedKey_tidy ⟨by decide, by decide, by decide⟩]
    rfl
  have same : (loadEntries [] 0 [binaryEntry]).1 = table := by rw [Option.some.inj loaded]
  rw [read] at same
  have found := (pairs [47, 98] zeroDigest).2 List.mem_cons_self
  rw [← same] at found
  exact absurd (congrArg Prod.fst (List.mem_singleton.mp found)) (by decide)

end Files

end Idsm.HostProbe
