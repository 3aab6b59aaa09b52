import Idsm.EthProbe.RuleStreamProperties

/-! Where in a direction's stream the alerts of a rule come from, and the search on a prefix of
what it was run on. -/

set_option autoImplicit false

namespace Idsm.EthProbe

open Idsm.Foundation

/-- Where each content of the raw bytes ends. -/
def rawEnds (buf : List UInt8) : List ContentMatch → (prevEnd : Nat) → Option (List Nat)
  | [], _ => some []
  | c :: rest, prevEnd =>
      if c.buffer = .raw then
        match contentMatches buf c prevEnd with
        | none => none
        | some stop => (rawEnds buf rest stop).map (stop :: ·)
      else none

/-- The ends of the contents that matched in a window, or the start of the message that a
sticky buffer belongs to; both count from the start of the stream. -/
inductive Occurrence where
  | window (ends : List Nat)
  | message (offset : Nat)
  deriving DecidableEq, Repr

def rawBuffer (buf : List UInt8) : MatchBuffers := { MatchBuffers.empty with raw := some buf }

section Chunks

variable (probe : Probe) (port : UInt16)

/-- The messages that the HTTP parser completes with a chunk. -/
def Probe.messagesOf (ds : DirState) (data : List UInt8) : List HttpMessage :=
  if port = doipPort ∨ port = probe.tlsPort ∨ ¬(port = probe.httpPort ∨ port = probe.httpAltPort) ∨
      ds.httpBad ∨ ds.httpChecked = false ∧ looksLikeHttp (ds.acc ++ data) = false then []
  else (parseMessages (ds.acc ++ data).length (ds.acc ++ data)).messages

def messageOffsets (offset : Nat) : List HttpMessage → List (Nat × HttpMessage)
  | [] => []
  | msg :: later => (offset, msg) :: messageOffsets (offset + msg.consumed) later

/-- The window starts with the retained tail. -/
def Probe.windowOccurrences (fed : Nat) (met : DirState × Chunk) : List (Rule × Occurrence) :=
  let start := fed - met.1.ruleTail.length
  (probe.streamHits met.2.packet met.1 met.2.data).map fun rule =>
    let ends := (rawEnds (met.1.ruleTail ++ met.2.data) rule.contents 0).getD []
    (rule, .window (ends.map (start + ·)))

/-- The first message starts with the accumulated bytes. -/
def Probe.messageOccurrences (fed : Nat) (met : DirState × Chunk) : List (Rule × Occurrence) :=
  let messages := probe.messagesOf port met.1 met.2.data
  (messageOffsets (fed - met.1.acc.length) messages).flatMap fun message =>
    (probe.rules.matched met.2.packet message.2.buffers).map fun rule =>
      (rule, .message message.1)

/-- The rules that alert for a chunk, when `fed` bytes of the stream came before it. -/
def Probe.chunkOccurrences (fed : Nat) (met : DirState × Chunk) : List (Rule × Occurrence) :=
  probe.windowOccurrences fed met ++ probe.messageOccurrences port fed met

def Probe.directionOccurrences (fed : Nat) (ds : DirState) : List Chunk → List (Rule × Occurrence)
  | [] => []
  | chunk :: later =>
      probe.chunkOccurrences port fed (ds, chunk) ++
        directionOccurrences (fed + chunk.data.length)
          (probe.handleStreamData chunk.packet port ds chunk.data).1 later

end Chunks

section Search

variable {nocase : Bool} {needle hay buf : List UInt8} {c : ContentMatch} {prevEnd stop : Nat}

theorem standsIn_take {index count : Nat} (something : needle ≠ []) :
    StandsIn nocase needle (hay.take count) index ↔
      StandsIn nocase needle hay index ∧ index + needle.length ≤ count := by
  unfold StandsIn
  constructor
  · intro stands
    have fits : index + needle.length ≤ (hay.take count).length :=
      StandsIn.fits stands something
    rw [List.length_take] at fits
    rw [List.drop_take, List.map_take] at stands
    exact ⟨stands.trans (List.take_prefix _ _), by omega⟩
  · rintro ⟨stands, inside⟩
    rw [List.drop_take, List.map_take]
    refine List.prefix_of_prefix_length_le stands (List.take_prefix _ _) ?_
    have long := stands.length_le
    rw [List.length_take]
    rw [List.length_map] at long ⊢
    omega

/-- A first occurrence inside a prefix is the first one there. -/
theorem memfind_take {index count : Nat} (found : memfind hay needle nocase = some index)
    (inside : index + needle.length ≤ count) :
    memfind (hay.take count) needle nocase = some index := by
  obtain ⟨something, stands, first⟩ := memfind_eq_some.1 found
  refine memfind_eq_some.2 ⟨something, (standsIn_take something).mpr ⟨stands, inside⟩, ?_⟩
  intro earlier before there
  exact first earlier before ((standsIn_take something).mp there).1

theorem limit_take {count : Nat} (short : count ≤ buf.length) :
    c.limit count prevEnd = min count (c.limit buf.length prevEnd) := by
  unfold ContentMatch.limit
  cases c.within with
  | none => cases c.depth <;> simp only [] <;> omega
  | some within => cases c.depth <;> simp only [] <;> omega

theorem contentMatches_eq_some :
    contentMatches buf c prevEnd = some stop ↔
      c.start prevEnd ≤ buf.length ∧ c.pattern.val.length ≤ c.limit buf.length prevEnd ∧
      (c.start prevEnd ≤ c.limit buf.length prevEnd →
        c.start prevEnd + c.pattern.val.length ≤ c.limit buf.length prevEnd) ∧
      ∃ found, memfind
        (if c.start prevEnd ≤ c.limit buf.length prevEnd then
          slice buf (c.start prevEnd) (c.limit buf.length prevEnd - c.start prevEnd)
        else buf.drop (c.start prevEnd)) c.pattern.val c.nocase = some found ∧
        c.start prevEnd + found + c.pattern.val.length = stop := by
  unfold contentMatches
  dsimp only
  split
  next out =>
    refine ⟨nofun, fun ⟨first, second, third, _⟩ => ?_⟩
    rcases out with out | out | ⟨below, out⟩
    · omega
    · omega
    · have := third below
      omega
  next inside =>
    rw [not_or, not_or] at inside
    obtain ⟨first, second, third⟩ := inside
    rw [Option.map_eq_some_iff]
    constructor
    · intro found
      exact ⟨by omega, by omega, fun below => by omega, found⟩
    · exact fun found => found.2.2.2

/-- A match that ends within a prefix is the match of the prefix. -/
theorem contentMatches_take {count : Nat} (short : count ≤ buf.length)
    (matched : contentMatches buf c prevEnd = some stop) (inside : stop ≤ count) :
    contentMatches (buf.take count) c prevEnd = some stop := by
  obtain ⟨_, sized, fits, found, search, ended⟩ := contentMatches_eq_some.1 matched
  have length : (buf.take count).length = count := List.length_take_of_le short
  have limit := @limit_take buf c prevEnd count short
  rw [contentMatches_eq_some, length, limit]
  by_cases below : c.start prevEnd ≤ c.limit buf.length prevEnd
  · have room := fits below
    rw [if_pos below] at search
    have reach := ((memfind_eq_some.1 search).2.1).fits c.pattern.property
    rw [slice, List.length_take] at reach
    have smaller : c.start prevEnd ≤ min count (c.limit buf.length prevEnd) := by omega
    refine ⟨by omega, by omega, fun _ => by omega, found, ?_, ended⟩
    rw [if_pos smaller, slice, List.drop_take, List.take_take]
    have kept := @memfind_take _ _ _ found
      (min count (c.limit buf.length prevEnd) - c.start prevEnd) search (by omega)
    rw [slice, List.take_take] at kept
    rw [Nat.min_eq_left (by omega)] at kept ⊢
    exact kept
  · rw [if_neg below] at search
    have above : ¬c.start prevEnd ≤ min count (c.limit buf.length prevEnd) := by omega
    refine ⟨by omega, by omega, fun less => absurd less above, found, ?_, ended⟩
    rw [if_neg above, List.drop_take]
    exact memfind_take search (by omega)

theorem contentMatches_le (matched : contentMatches buf c prevEnd = some stop) :
    stop ≤ buf.length := by
  obtain ⟨_, _, fits, found, search, ended⟩ := contentMatches_eq_some.1 matched
  have reach := ((memfind_eq_some.1 search).2.1).fits c.pattern.property
  split at reach
  · rw [slice, List.length_take, List.length_drop] at reach
    omega
  · rw [List.length_drop] at reach
    omega

end Search

section Ends

variable {buf : List UInt8} {contents : List ContentMatch} {prevEnd : Nat} {ends : List Nat}

/-- Contents match raw bytes when each of them is found. -/
theorem contentsMatch_rawBuffer {prevEnds : MatchBuffer → Nat} :
    (contentsMatch (rawBuffer buf) contents prevEnds).isSome =
      (rawEnds buf contents (prevEnds .raw)).isSome := by
  induction contents generalizing prevEnds with
  | nil => rfl
  | cons c rest ih =>
      rw [contentsMatch, rawEnds]
      cases buffer : c.buffer with
      | raw =>
          rw [if_pos rfl]
          change (match contentMatches buf c (prevEnds .raw) with
            | none => none
            | some stop => contentsMatch (rawBuffer buf) rest fun other =>
                if other = MatchBuffer.raw then stop else prevEnds other).isSome = _
          cases contentMatches buf c (prevEnds .raw) with
          | none => rfl
          | some stop =>
              dsimp only
              rw [ih, Option.isSome_map, if_pos rfl]
      | httpMethod => rfl
      | httpUri => rfl
      | httpHeader => rfl
      | dnsQuery => rfl

theorem rawEnds_le (matched : rawEnds buf contents prevEnd = some ends) :
    ∀ stop ∈ ends, stop ≤ buf.length := by
  induction contents generalizing prevEnd ends with
  | nil =>
      cases matched
      exact nofun
  | cons c rest ih =>
      rw [rawEnds] at matched
      split at matched
      · cases first : contentMatches buf c prevEnd with
        | none =>
            rw [first] at matched
            cases matched
        | some stop =>
            rw [first] at matched
            obtain ⟨others, later, rfl⟩ := Option.map_eq_some_iff.mp matched
            intro other member
            rcases List.mem_cons.mp member with rfl | behind
            · exact contentMatches_le first
            · exact ih later other behind
      · cases matched

/-- Contents that all end within a prefix match the prefix. -/
theorem rawEnds_take {count : Nat} (short : count ≤ buf.length)
    (matched : rawEnds buf contents prevEnd = some ends) (inside : ∀ stop ∈ ends, stop ≤ count) :
    rawEnds (buf.take count) contents prevEnd = some ends := by
  induction contents generalizing prevEnd ends with
  | nil => exact matched
  | cons c rest ih =>
      rw [rawEnds] at matched ⊢
      split at matched
      next raw =>
        rw [if_pos raw]
        cases first : contentMatches buf c prevEnd with
        | none =>
            rw [first] at matched
            cases matched
        | some stop =>
            rw [first] at matched
            obtain ⟨others, later, rfl⟩ := Option.map_eq_some_iff.mp matched
            rw [contentMatches_take short first (inside stop List.mem_cons_self)]
            dsimp only
            rw [ih later fun other member => inside other (List.mem_cons_of_mem _ member)]
            rfl
      next => cases matched

end Ends

end Idsm.EthProbe
