import Idsm.CanProbe.IdList

/-! A skipped line of the identifier file leaves the tables alone and any other adds what it
says, except where a number is turned by its sign or cut to 32 bits, and where the interval
is rejected behind an identifier that is new. -/

set_option autoImplicit false

namespace Idsm.CanProbe

open Idsm.Foundation

section Numbers

variable {base : Nat} {text digits : List UInt8} {negative : Bool} {value : UInt32}

/-- The text is this number and nothing else. -/
def Written (base : Nat) (text : List UInt8) (value : UInt32) : Prop :=
  ∃ negative digits, SpellsNumber base negative digits text ∧
    (if negative then -(ofDigits base digits : Int) else ofDigits base digits) = value.toNat

/-- The text is a number below 2^32 that no sign turns. -/
def Plain (base : Nat) (text : List UInt8) : Prop :=
  ∃ negative digits, SpellsNumber base negative digits text ∧ ofDigits base digits < 2 ^ 32 ∧
    (negative = true → ofDigits base digits = 0)

theorem plain_iff : Plain base text ↔ ∃ value, Written base text value := by
  constructor
  · rintro ⟨negative, digits, spells, small, sign⟩
    refine ⟨UInt32.ofNat (ofDigits base digits), negative, digits, spells, ?_⟩
    rw [UInt32.toNat_ofNat_of_lt' small]
    cases negative with
    | true => simp [sign rfl]
    | false => rfl
  · rintro ⟨value, negative, digits, spells, same⟩
    have small := value.toNat_lt
    refine ⟨negative, digits, spells, ?_, fun minus => ?_⟩
    · cases negative with
      | true =>
          simp only [if_true] at same
          omega
      | false =>
          simp only [Bool.false_eq_true, if_false] at same
          omega
    · simp only [minus, if_true] at same
      omega

theorem zeroFree_of_spells (spells : SpellsNumber base negative digits text) : 0 ∉ text := by
  obtain ⟨blanks, sign, mark, blank, signed, marked, rfl⟩ := spells.spelled
  intro member
  rw [List.mem_append, List.mem_append, List.mem_append] at member
  rcases member with inside | inside | inside | inside
  · exact absurd (blank 0 inside) (by decide)
  · unfold signs at signed
    split at signed
    next =>
      obtain rfl := List.mem_singleton.mp signed
      exact absurd inside (by decide)
    next =>
      rcases List.mem_cons.mp signed with rfl | other
      · exact absurd inside (by decide)
      · obtain rfl := List.mem_singleton.mp other
        exact absurd inside (by decide)
  · unfold prefixes at marked
    split at marked
    next =>
      simp only [List.mem_cons, List.not_mem_nil, or_false] at marked
      rcases marked with rfl | rfl | rfl
      · exact absurd inside (by decide)
      · exact absurd inside (by decide)
      · exact absurd inside (by decide)
    next =>
      obtain rfl := List.mem_singleton.mp marked
      exact absurd inside (by decide)
  · exact absurd (spells.plain 0 inside) (by simp [isDigit, digitValue])

theorem cString_of_zeroFree (zeroFree : 0 ∉ text) : cString text = text :=
  List.takeWhile_eq_self_iff.mpr fun _ member =>
    decide_eq_true fun same => zeroFree (same ▸ member)

/-- What is written below 2^32 is read as it is. -/
theorem strtoul_written (written : Written base text value) :
    strtoul base (cString text) = some (value.toUInt64, []) := by
  obtain ⟨negative, digits, spells, same⟩ := written
  have small := value.toNat_lt
  have number : ofDigits base digits = value.toNat := by
    cases negative with
    | true =>
        simp only [if_true] at same
        omega
    | false =>
        simp only [Bool.false_eq_true, if_false] at same
        omega
  rw [cString_of_zeroFree (zeroFree_of_spells spells), strtoul, spells.scan, Option.map_some,
    number]
  dsimp only
  rw [if_neg (by omega)]
  have read : UInt64.ofNat value.toNat = value.toUInt64 := by
    apply UInt64.toNat_inj.mp
    simp
  cases negative with
  | true =>
      have zero : value.toNat = 0 := by
        simp only [if_true] at same
        omega
      rw [if_pos rfl, read]
      have none : value = 0 := UInt32.toNat_inj.mp zero
      rw [none]
      rfl
  | false => rw [if_neg Bool.false_ne_true, read]

end Numbers

section Lines

variable {tables : IdTables} {line idTok minTok : List UInt8} {id min : UInt32}

/-- The identifier that a word is taken for. -/
def readId (idTok : List UInt8) : Option UInt32 :=
  match strtoul 16 (cString idTok) with
  | some (id, []) => if 0x1FFFFFFF < id then none else some id.toUInt32
  | _ => none

/-- The interval that a word is taken for. -/
def readMin (minTok : List UInt8) : Option UInt32 :=
  match strtoul 10 (cString minTok) with
  | some (minMs, []) => if minMs = 0 then none else some minMs.toUInt32
  | _ => none

/-- What a line is taken for. -/
inductive Verdict where
  | blank
  | badId
  | badMin (id : UInt32)
  | id (id : UInt32)
  | both (id min : UInt32)

def verdictOf (line : List UInt8) : Verdict :=
  match lineTokens line with
  | none => .blank
  | some (idTok, minTok) =>
      match readId idTok, minTok with
      | none, _ => .badId
      | some id, none => .id id
      | some id, some minTok =>
          match readMin minTok with
          | none => .badMin id
          | some min => .both id min

def Verdict.skips : Verdict → Bool
  | .badId => true
  | .badMin _ => true
  | _ => false

def Verdict.apply (tables : IdTables) : Verdict → IdTables
  | .blank => tables
  | .badId => tables
  | .badMin id => tables.addKnown id
  | .id id => tables.addKnown id
  | .both id min => (tables.addKnown id).addMinInterval id min

theorem loadIdsLine_eq (tables : IdTables) (line : List UInt8) :
    loadIdsLine tables line = ((verdictOf line).apply tables, (verdictOf line).skips) := by
  rw [loadIdsLine, verdictOf]
  cases lineTokens line with
  | none => rfl
  | some tokens =>
      obtain ⟨idTok, minTok⟩ := tokens
      cases read : strtoul 16 (cString idTok) with
      | none =>
          simp only [readId, read]
          rfl
      | some scanned =>
          obtain ⟨id, rest⟩ := scanned
          cases rest with
          | cons byte rest =>
              simp only [readId, read]
              rfl
          | nil =>
              by_cases large : 0x1FFFFFFF < id
              · simp only [readId, read, if_pos large]
                rfl
              · simp only [readId, read, if_neg large]
                cases minTok with
                | none => rfl
                | some minTok =>
                    cases readMs : strtoul 10 (cString minTok) with
                    | none =>
                        simp only [readMin, readMs]
                        rfl
                    | some scanned =>
                        obtain ⟨minMs, rest⟩ := scanned
                        cases rest with
                        | cons byte rest =>
                            simp only [readMin, readMs]
                            rfl
                        | nil =>
                            by_cases zero : minMs = 0
                            · simp only [readMin, readMs, if_pos zero]
                              rfl
                            · simp only [readMin, readMs, if_neg zero]
                              rfl

theorem readId_written {written : UInt32} (writes : Written 16 idTok written)
    (read : readId idTok = some id) : written = id := by
  rw [readId, strtoul_written writes] at read
  dsimp only at read
  split at read
  next => cases read
  next => exact (UInt32.toUInt32_toUInt64 written).symm.trans (Option.some.inj read)

theorem readMin_written {written : UInt32} (writes : Written 10 minTok written)
    (read : readMin minTok = some min) : written = min := by
  rw [readMin, strtoul_written writes] at read
  dsimp only at read
  split at read
  next => cases read
  next => exact (UInt32.toUInt32_toUInt64 written).symm.trans (Option.some.inj read)

/-- What a line adds that says what it adds. -/
inductive Adds (tables : IdTables) (line : List UInt8) : IdTables → Prop where
  | blank (tokens : lineTokens line = none) : Adds tables line tables
  | id {idTok : List UInt8} {id : UInt32} (tokens : lineTokens line = some (idTok, none))
      (written : Written 16 idTok id) : Adds tables line (tables.addKnown id)
  | both {idTok minTok : List UInt8} {id min : UInt32}
      (tokens : lineTokens line = some (idTok, some minTok)) (written : Written 16 idTok id)
      (interval : Written 10 minTok min) :
      Adds tables line ((tables.addKnown id).addMinInterval id min)

theorem Adds.writtenId {later : IdTables} {minTok : Option (List UInt8)}
    (adds : Adds tables line later) (tokens : lineTokens line = some (idTok, minTok)) :
    Plain 16 idTok := by
  cases adds with
  | blank none =>
      rw [tokens] at none
      exact nomatch none
  | @id word id words written =>
      rw [tokens] at words
      obtain ⟨rfl, _⟩ := Prod.mk.inj (Option.some.inj words)
      exact plain_iff.2 ⟨id, written⟩
  | @both word minWord id min words written interval =>
      rw [tokens] at words
      obtain ⟨rfl, _⟩ := Prod.mk.inj (Option.some.inj words)
      exact plain_iff.2 ⟨id, written⟩

theorem Adds.writtenMin {later : IdTables} (adds : Adds tables line later)
    (tokens : lineTokens line = some (idTok, some minTok)) : Plain 10 minTok := by
  cases adds with
  | blank none =>
      rw [tokens] at none
      exact nomatch none
  | id words =>
      rw [tokens] at words
      exact nomatch (Prod.mk.inj (Option.some.inj words)).2
  | @both word minWord id min words written interval =>
      rw [tokens] at words
      obtain rfl := Option.some.inj (Prod.mk.inj (Option.some.inj words)).2
      exact plain_iff.2 ⟨min, interval⟩

/-- A skipped line changes nothing, and any other adds what it says. -/
def LineExact (tables : IdTables) (line : List UInt8) : Prop :=
  if (loadIdsLine tables line).2 then (loadIdsLine tables line).1 = tables
  else Adds tables line (loadIdsLine tables line).1

/-- The words that are accepted say what they are taken for, and an interval that is rejected
follows an identifier that is known. -/
def LineSound (tables : IdTables) (line : List UInt8) : Prop :=
  ∀ idTok minTok id, lineTokens line = some (idTok, minTok) → readId idTok = some id →
    match minTok with
    | none => Plain 16 idTok
    | some minTok =>
        if readMin minTok = none then id ∈ tables.known else Plain 16 idTok ∧ Plain 10 minTok

theorem addKnown_eq_iff : tables.addKnown id = tables ↔ id ∈ tables.known := by
  rw [IdTables.addKnown]
  constructor
  · intro same
    by_contra new
    rw [if_neg new] at same
    have longer := congrArg (fun tables => tables.known.length) same
    simp at longer
  · exact fun known => if_pos known

theorem lineExact_eq (tables : IdTables) (line : List UInt8) : LineExact tables line =
    if (verdictOf line).skips then (verdictOf line).apply tables = tables
    else Adds tables line ((verdictOf line).apply tables) := by
  rw [LineExact, loadIdsLine_eq]

theorem lineExact_iff : LineExact tables line ↔ LineSound tables line := by
  rw [lineExact_eq, LineSound]
  cases tokens : lineTokens line with
  | none =>
      have verdict : verdictOf line = .blank := by rw [verdictOf, tokens]
      rw [verdict]
      exact ⟨(fun _ _ _ _ impossible => nomatch impossible), fun _ => .blank tokens⟩
  | some words =>
      obtain ⟨idTok, minTok⟩ := words
      cases read : readId idTok with
      | none =>
          have verdict : verdictOf line = .badId := by
            rw [verdictOf, tokens]
            simp only [read]
          rw [verdict]
          refine ⟨fun _ idTok minTok id same accepted => ?_, fun _ => rfl⟩
          obtain ⟨rfl, rfl⟩ := Prod.mk.inj (Option.some.inj same)
          rw [read] at accepted
          exact nomatch accepted
      | some id =>
          cases minTok with
          | none =>
              have verdict : verdictOf line = .id id := by
                rw [verdictOf, tokens]
                simp only [read]
              rw [verdict]
              constructor
              · intro adds word minWord other same accepted
                obtain ⟨rfl, rfl⟩ := Prod.mk.inj (Option.some.inj same)
                exact Adds.writtenId adds tokens
              · intro sound
                obtain ⟨written, writes⟩ := plain_iff.1 (sound idTok none id rfl read)
                obtain rfl := readId_written writes read
                exact .id tokens writes
          | some minTok =>
              cases interval : readMin minTok with
              | none =>
                  have verdict : verdictOf line = .badMin id := by
                    rw [verdictOf, tokens]
                    simp only [read, interval]
                  rw [verdict]
                  constructor
                  · intro kept word minWord other same accepted
                    obtain ⟨rfl, rfl⟩ := Prod.mk.inj (Option.some.inj same)
                    rw [read] at accepted
                    obtain rfl := Option.some.inj accepted
                    simp only [interval, if_true]
                    exact addKnown_eq_iff.1 kept
                  · intro sound
                    have known := sound idTok (some minTok) id rfl read
                    simp only [interval, if_true] at known
                    exact addKnown_eq_iff.2 known
              | some min =>
                  have verdict : verdictOf line = .both id min := by
                    rw [verdictOf, tokens]
                    simp only [read, interval]
                  rw [verdict]
                  constructor
                  · intro adds word minWord other same accepted
                    obtain ⟨rfl, rfl⟩ := Prod.mk.inj (Option.some.inj same)
                    simp only [interval, reduceCtorEq, if_false]
                    exact ⟨Adds.writtenId adds tokens, Adds.writtenMin adds tokens⟩
                  · intro sound
                    have plain := sound idTok (some minTok) id rfl read
                    simp only [interval, reduceCtorEq, if_false] at plain
                    obtain ⟨written, writes⟩ := plain_iff.1 plain.1
                    obtain ⟨bound, bounds⟩ := plain_iff.1 plain.2
                    obtain rfl := readId_written writes read
                    obtain rfl := readMin_written bounds interval
                    exact .both tokens writes bounds

end Lines

section Files

variable {tables : IdTables} {line : List UInt8} {lines : List (List UInt8)}

/-- Every line is exact where it comes, and the skipped ones could as well be missing. -/
structure AllOrNothing (tables : IdTables) (lines : List (List UInt8)) : Prop where
  exact : ∀ before line after, lines = before ++ line :: after →
    LineExact (loadIdsLines tables before).1 line
  alone : (loadIdsLines tables lines).1 =
    (loadIdsLines tables (lines.filter fun line => !(verdictOf line).skips)).1

/-- The fold's step. -/
private def countLine (state : IdTables × Nat) (line : List UInt8) : IdTables × Nat :=
  ((loadIdsLine state.1 line).1,
    if (loadIdsLine state.1 line).2 then state.2 + 1 else state.2)

theorem loadIdsLines_cons (tables : IdTables) (line : List UInt8) (lines : List (List UInt8)) :
    (loadIdsLines tables (line :: lines)).1 =
      (loadIdsLines (loadIdsLine tables line).1 lines).1 := by
  have counted : ∀ (lines : List (List UInt8)) (tables : IdTables) (first second : Nat),
      (lines.foldl countLine (tables, first)).1 = (lines.foldl countLine (tables, second)).1 := by
    intro lines
    induction lines with
    | nil => exact fun _ _ _ => rfl
    | cons line lines ih => exact fun tables _ _ => ih _ _ _
  exact counted lines _ _ _

theorem alone_of_exact (exact : ∀ before line after, lines = before ++ line :: after →
      LineExact (loadIdsLines tables before).1 line) :
    (loadIdsLines tables lines).1 =
      (loadIdsLines tables (lines.filter fun line => !(verdictOf line).skips)).1 := by
  induction lines generalizing tables with
  | nil => rfl
  | cons line lines ih =>
      have later := @ih (loadIdsLine tables line).1 fun before other after split => by
        have here := exact (line :: before) other after (by rw [split]; rfl)
        rwa [loadIdsLines_cons] at here
      have first := exact [] line lines rfl
      change LineExact tables line at first
      rw [lineExact_eq] at first
      rw [loadIdsLines_cons, later]
      cases skips : (verdictOf line).skips with
      | true =>
          rw [skips, if_pos rfl] at first
          rw [List.filter_cons_of_neg (by simp [skips]), loadIdsLine_eq]
          simp only [first]
      | false => rw [List.filter_cons_of_pos (by simp [skips]), loadIdsLines_cons]

/-- A file is taken line by line, all or nothing, exactly when each of its lines is sound where
it comes. -/
theorem loadIds_allOrNothing_iff (tables : IdTables) (content : List UInt8) :
    AllOrNothing tables (fields 10 content) ↔
      ∀ before line after, fields 10 content = before ++ line :: after →
        LineSound (loadIdsLines tables before).1 line := by
  constructor
  · intro all before line after split
    exact lineExact_iff.1 (all.exact before line after split)
  · intro sound
    have exact := fun before line after split => lineExact_iff.2 (sound before line after split)
    exact ⟨exact, alone_of_exact exact⟩

/-- `123 x`: the line is skipped, and its identifier is known from then on. -/
theorem skipped_line_adds :
    loadIds .empty (some [49, 50, 51, 32, 120]) = some (⟨[0x123], []⟩, 1) ∧
      ¬ AllOrNothing .empty (fields 10 [49, 50, 51, 32, 120]) := by
  refine ⟨by decide, fun all => ?_⟩
  have kept := all.exact [] [49, 50, 51, 32, 120] [] (by decide)
  change LineExact .empty _ at kept
  rw [LineExact, if_pos (by decide)] at kept
  exact absurd kept (by decide)

/-- `123 4294967297`: an interval of one millisecond. -/
example : loadIds .empty (some [49, 50, 51, 32, 52, 50, 57, 52, 57, 54, 55, 50, 57, 55]) =
    some (⟨[0x123], [(0x123, ⟨1, false, 0, 0⟩)]⟩, 0) := by
  decide

end Files

end Idsm.CanProbe
