import Mathlib

/-! The alert socket: bytes arrive in pieces, and each line of them goes to the callback. -/

set_option autoImplicit false

namespace Idsm.Managerd.SocketServer

/-- Hand out the lines that are complete and keep the rest. An empty line is dropped. -/
def drainLines : Nat → List UInt8 → List (List UInt8) × List UInt8
  | 0, pending => ([], pending)
  | fuel + 1, pending =>
      match pending.dropWhile (· ≠ 10) with
      | [] => ([], pending)
      | _ :: rest =>
          let line := pending.takeWhile (· ≠ 10)
          let (lines, left) := drainLines fuel rest
          (if line = [] then lines else line :: lines, left)

/-- The bytes of a half line that are too many for any client. -/
def maxPending : Nat := 1 <<< 20

def flush (pending : List UInt8) : List (List UInt8) := if pending = [] then [] else [pending]

/-- The calls of the callback. The reads end where one returns nothing or the server stops. -/
def handleConn : List UInt8 → List (List UInt8) → List (List UInt8)
  | pending, [] => flush pending
  | pending, chunk :: chunks =>
      let (lines, left) := drainLines (pending ++ chunk).length (pending ++ chunk)
      if maxPending < left.length then lines ++ flush left
      else lines ++ handleConn left chunks

/-- The lines of a stream that hold something. -/
def linesOf (stream : List UInt8) : List (List UInt8) := (stream.splitOn 10).filter (· ≠ [])

section Framing

variable {line left pending stream : List UInt8} {lines : List (List UInt8)} {fuel : Nat}

theorem linesOf_line (oneLine : 10 ∉ line) (rest : List UInt8) :
    linesOf (line ++ 10 :: rest) = if line = [] then linesOf rest else line :: linesOf rest := by
  rw [linesOf, List.splitOn_append_cons_self_of_not_mem oneLine, List.filter_cons]
  by_cases empty : line = []
  · rw [if_pos empty, if_neg (by simpa using empty), linesOf]
  · rw [if_neg empty, if_pos (by simpa using empty), linesOf]

theorem linesOf_flush (oneLine : 10 ∉ line) : linesOf line = flush line := by
  rw [linesOf, List.splitOn_eq_singleton oneLine, flush, List.filter_cons, List.filter_nil]
  by_cases empty : line = []
  · rw [if_pos empty, if_neg (by simpa using empty)]
  · rw [if_neg empty, if_pos (by simpa using empty)]

theorem drainLines_half (oneLine : 10 ∉ pending) : drainLines fuel pending = ([], pending) := by
  cases fuel with
  | zero => rfl
  | succ fuel =>
      have none : pending.dropWhile (fun byte => decide (byte ≠ 10)) = [] :=
        List.dropWhile_eq_nil_iff.mpr fun byte member =>
          decide_eq_true fun same => oneLine (same ▸ member)
      rw [drainLines, none]

theorem drainLines_line (oneLine : 10 ∉ line) (rest : List UInt8) :
    drainLines (fuel + 1) (line ++ 10 :: rest) =
      (if line = [] then (drainLines fuel rest).1 else line :: (drainLines fuel rest).1,
        (drainLines fuel rest).2) := by
  have inside : ∀ byte ∈ line, decide (byte ≠ 10) = true := fun byte member =>
    decide_eq_true fun same => oneLine (same ▸ member)
  have behind : (line ++ 10 :: rest).dropWhile (fun byte => decide (byte ≠ 10)) = 10 :: rest := by
    rw [List.dropWhile_append_of_pos inside, List.dropWhile_cons_of_neg (by decide)]
  have before : (line ++ 10 :: rest).takeWhile (fun byte => decide (byte ≠ 10)) = line := by
    rw [List.takeWhile_append_of_pos inside, List.takeWhile_cons_of_neg (by decide),
      List.append_nil]
  rw [drainLines, behind]
  simp only [before]

/-- What is drained is the front of the stream's lines, whatever comes behind it. -/
theorem drainLines_spec (enough : pending.length ≤ fuel) (more : List UInt8) :
    linesOf (pending ++ more) =
        (drainLines fuel pending).1 ++ linesOf ((drainLines fuel pending).2 ++ more) ∧
      10 ∉ (drainLines fuel pending).2 ∧
      ∀ line ∈ ((drainLines fuel pending).2 ++ more).splitOn 10,
        line ∈ (pending ++ more).splitOn 10 := by
  induction fuel generalizing pending with
  | zero =>
      rw [List.length_eq_zero_iff.mp (Nat.le_zero.mp enough)]
      exact ⟨rfl, List.not_mem_nil, fun _ member => member⟩
  | succ fuel ih =>
      by_cases member : 10 ∈ pending
      · obtain ⟨line, rest, rfl, oneLine⟩ := List.eq_append_cons_of_mem member
        have shorter : rest.length ≤ fuel := by
          rw [List.length_append, List.length_cons] at enough
          omega
        obtain ⟨same, kept, members⟩ := ih shorter
        rw [drainLines_line oneLine, List.append_assoc, List.cons_append, linesOf_line oneLine, same,
          List.splitOn_append_cons_self_of_not_mem oneLine]
        refine ⟨?_, kept, fun line inside => List.mem_cons_of_mem _ (members line inside)⟩
        split
        next => rfl
        next => rfl
      · rw [drainLines_half member]
        exact ⟨rfl, member, fun _ inside => inside⟩

/-- A half line is no longer than the line it begins. -/
theorem length_le_of_legal {limit : Nat} (oneLine : 10 ∉ left) (more : List UInt8)
    (legal : ∀ line ∈ (left ++ more).splitOn 10, line.length ≤ limit) : left.length ≤ limit := by
  obtain ⟨line, begins, member⟩ : ∃ line, left.length ≤ line.length ∧
      line ∈ (left ++ more).splitOn 10 := by
    by_cases newline : 10 ∈ more
    · obtain ⟨first, rest, rfl, inside⟩ := List.eq_append_cons_of_mem newline
      have whole : 10 ∉ left ++ first := by
        rw [List.mem_append]
        exact not_or.mpr ⟨oneLine, inside⟩
      refine ⟨left ++ first, by simp, ?_⟩
      rw [← List.append_assoc, List.splitOn_append_cons_self_of_not_mem whole]
      exact List.mem_cons_self
    · have whole : 10 ∉ left ++ more := by
        rw [List.mem_append]
        exact not_or.mpr ⟨oneLine, newline⟩
      refine ⟨left ++ more, by simp, ?_⟩
      rw [List.splitOn_eq_singleton whole]
      exact List.mem_cons_self
  exact Nat.le_trans begins (legal line member)

theorem handleConn_spec (chunks : List (List UInt8)) (oneLine : 10 ∉ pending)
    (legal : ∀ line ∈ (pending ++ chunks.flatten).splitOn 10, line.length ≤ maxPending) :
    handleConn pending chunks = linesOf (pending ++ chunks.flatten) := by
  induction chunks generalizing pending with
  | nil =>
      rw [List.flatten_nil, List.append_nil, linesOf_flush oneLine]
      rfl
  | cons chunk chunks ih =>
      rw [List.flatten_cons, ← List.append_assoc] at legal ⊢
      obtain ⟨same, kept, members⟩ :=
        @drainLines_spec (pending ++ chunk) _ (Nat.le_refl _) chunks.flatten
      have stays := fun line member => legal line (members line member)
      rw [handleConn]
      simp only
      rw [if_neg (Nat.not_lt.mpr (length_le_of_legal kept _ stays)), ih kept stays, same]

/-- However the reads cut the stream, its lines are handed out one by one, the last one even
without a newline. -/
theorem handleConn_lines {chunks : List (List UInt8)}
    (legal : ∀ line ∈ chunks.flatten.splitOn 10, line.length ≤ maxPending) :
    handleConn [] chunks = linesOf chunks.flatten :=
  handleConn_spec chunks List.not_mem_nil legal

/-- A line in two pieces, an empty line, and one without its newline. -/
theorem handleConn_lines_sample :
    handleConn [] [[97], [98, 10, 10, 99], [100]] = [[97, 98], [99, 100]] ∧
      linesOf [97, 98, 10, 10, 99, 100] = [[97, 98], [99, 100]] := by
  have found := @handleConn_lines [[97], [98, 10, 10, 99], [100]] (by decide)
  exact ⟨found.trans (by decide), by decide⟩

end Framing

end Idsm.Managerd.SocketServer
