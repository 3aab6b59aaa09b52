import Idsm.HostProbe.Sha256

/-! The streaming context computes the digest of the standard, however the bytes come. -/

set_option autoImplicit false

namespace Idsm.HostProbe.Sha256

open Idsm.Foundation
open Idsm.Foundation.Fips180 (Words)

section Constants

private theorem fractions : ∀ t < 64, Fips180.IsRootFraction 3 (Fips180.primes.getD t 0) (K.getD t 0) := by
  decide

private theorem small_primes : ∀ t < 64, Fips180.primes.getD t 0 < 2 ^ (8 * 3) := by
  decide

theorem K_standard {t : Nat} (inside : t < 64) : K.getD t 0 = Fips180.k t :=
  (Fips180.rootFraction_eq (by decide) (small_primes t inside) (fractions t inside)).symm

theorem fresh_standard : Ctx.fresh.block.state = Fips180.initial := by
  symm
  rw [Ctx.fresh, Fips180.initial, Words.mk.injEq]
  refine ⟨?_, ?_, ?_, ?_, ?_, ?_, ?_, ?_⟩ <;>
    exact Fips180.rootFraction_eq (by decide) (by decide) (by decide)

end Constants

section Compress

variable {block : List UInt8} {w : List UInt32}

/-- The words that are there are the schedule's. -/
def Scheduled (block : List UInt8) (w : List UInt32) : Prop :=
  ∀ t < w.length, w.getD t 0 = Fips180.schedule block t

theorem scheduled_loaded : Scheduled block ((List.range 16).map (loadWord block)) := by
  intro t inside
  rw [List.length_map, List.length_range] at inside
  rw [Fips180.schedule, if_pos inside, List.getD_eq_getElem?_getD, List.getElem?_map,
    List.getElem?_range inside]
  rfl

private theorem sum_reversed (p q r s : UInt32) : p + q + r + s = s + r + q + p := by
  ac_rfl

theorem Scheduled.next (scheduled : Scheduled block w) (loaded : 16 ≤ w.length) :
    Scheduled block (w ++ [nextWord w]) := by
  intro t inside
  rw [List.length_append, List.length_singleton] at inside
  by_cases old : t < w.length
  · rw [List.getD_append _ _ _ _ old]
    exact scheduled t old
  · obtain rfl : t = w.length := by omega
    have word : nextWord w = Fips180.schedule block w.length := by
      rw [Fips180.schedule, if_neg (by omega), ← sum_reversed, ← scheduled _ (by omega),
        ← scheduled _ (by omega), ← scheduled _ (by omega), ← scheduled _ (by omega)]
      rfl
    rw [List.getD_append_right _ _ _ _ (Nat.le_refl _), Nat.sub_self, word]
    rfl

theorem Scheduled.expand {more : Nat} (scheduled : Scheduled block w) (loaded : 16 ≤ w.length) :
    Scheduled block (expand more w) ∧ (Sha256.expand more w).length = w.length + more := by
  induction more generalizing w with
  | zero => exact ⟨scheduled, rfl⟩
  | succ more ih =>
      have longer : (w ++ [nextWord w]).length = w.length + 1 := by
        rw [List.length_append, List.length_singleton]
      obtain ⟨all, length⟩ := ih (scheduled.next loaded) (by omega)
      exact ⟨all, by rw [Sha256.expand, length]; omega⟩

theorem mix_standard {r : Words} {i : Nat} (scheduled : Scheduled block w) (whole : w.length = 64)
    (inside : i < 64) : mix w r i = Fips180.round block r i := by
  rw [mix, Fips180.round, scheduled i (whole ▸ inside), K_standard inside]
  rfl

private theorem foldl_congr {α β : Type} {first second : β → α → β} {members : List α} {start : β}
    (same : ∀ value, ∀ member ∈ members, first value member = second value member) :
    members.foldl first start = members.foldl second start := by
  induction members generalizing start with
  | nil => rfl
  | cons member rest ih =>
      rw [List.foldl_cons, List.foldl_cons, same start member List.mem_cons_self]
      exact ih fun value other among => same value other (List.mem_cons_of_mem _ among)

theorem compress_standard : compress = Fips180.compress := by
  funext h block
  obtain ⟨scheduled, length⟩ := @Scheduled.expand block _ 48 scheduled_loaded (by simp)
  have whole : (expand 48 ((List.range 16).map (loadWord block))).length = 64 := by
    rw [length, List.length_map, List.length_range]
  have rounds : (List.range 64).foldl (mix (expand 48 ((List.range 16).map (loadWord block)))) h =
      (List.range 64).foldl (Fips180.round block) h :=
    foldl_congr fun r i member => mix_standard scheduled whole (List.mem_range.1 member)
  unfold compress Fips180.compress
  dsimp only
  rw [rounds]
  simp only [UInt32.add_comm]

end Compress

section Streaming

variable {message : List UInt8} {c : Ctx}

/-- The context was fed the message, and counted its bytes. -/
structure Follows (message : List UInt8) (c : Ctx) : Prop where
  holds : c.block.Holds compress Fips180.initial message
  counted : c.totalLen = UInt64.ofNat message.length

theorem follows_fresh : Follows [] Ctx.fresh where
  holds := by
    rw [← fresh_standard]
    exact Absorbed.nil
  counted := rfl

theorem Follows.update (follows : Follows message c) (data : List UInt8) :
    Follows (message ++ data) (ctxUpdate c data) where
  holds := follows.holds.feed data
  counted := by rw [ctxUpdate, follows.counted, List.length_append, UInt64.ofNat_add]

theorem Follows.updates (follows : Follows message c) (pieces : List (List UInt8)) :
    Follows (message ++ pieces.flatten) (pieces.foldl ctxUpdate c) := by
  induction pieces generalizing message c with
  | nil =>
      rw [List.flatten_nil, List.append_nil]
      exact follows
  | cons piece rest ih =>
      rw [List.flatten_cons, ← List.append_assoc]
      exact ih (follows.update piece)

theorem lenBe_standard {length : Nat} (small : length < 2 ^ 61) :
    lenBe (UInt64.ofNat length * 8) = Fips180.lengthBytes (8 * length) := by
  have bits : (UInt64.ofNat length * 8).toNat = 8 * length := by
    rw [UInt64.toNat_mul, UInt64.toNat_ofNat']
    change length % 2 ^ 64 * 8 % 2 ^ 64 = 8 * length
    omega
  rw [lenBe, Fips180.lengthBytes]
  apply List.map_congr_left
  intro i member
  have inside := List.mem_range.1 member
  have shift : (56 - 8 * i) % 2 ^ 64 % 64 = 56 - 8 * i := by omega
  apply UInt8.toNat_inj.1
  rw [UInt64.toNat_toUInt8, UInt64.toNat_shiftRight, bits, UInt8.toNat_ofNat',
    UInt64.toNat_ofNat', Nat.shiftRight_eq_div_pow, shift]

theorem ctxFinal_standard (follows : Follows message c) (small : message.length < 2 ^ 61) :
    ctxFinal c = Fips180.sha256 message := by
  have closed := ((follows.holds.close 0x80).feed (Fips180.lengthBytes (8 * message.length))).state
  rw [compress_standard] at closed
  rw [ctxFinal, follows.counted, lenBe_standard small, compress_standard, ← closed]
  rfl

end Streaming

/-- A read of nothing changes nothing. -/
theorem sha256File_reads (reads : List (List UInt8)) :
    sha256File (some ⟨reads, false⟩) = some (ctxFinal (reads.foldl ctxUpdate .fresh)) := by
  have step : (fun c read => if read = [] then c else ctxUpdate c read) = ctxUpdate := by
    funext c read
    by_cases empty : read = []
    · rw [if_pos empty, empty, ctxUpdate, BlockBuffer.feed_nil]
      change c = ⟨c.block, c.totalLen + 0⟩
      rw [UInt64.add_zero]
    · rw [if_neg empty]
  rw [sha256File, step]
  rfl

/-- However the bytes come, the digest is the standard's, and a file has that of its bytes. -/
theorem sha256_streaming (pieces : List (List UInt8)) (small : pieces.flatten.length < 2 ^ 61) :
    ctxFinal (pieces.foldl ctxUpdate .fresh) = Fips180.sha256 pieces.flatten ∧
      sha256 pieces.flatten = Fips180.sha256 pieces.flatten ∧
      sha256File (some ⟨pieces, false⟩) = some (sha256 pieces.flatten) := by
  have streamed := ctxFinal_standard (follows_fresh.updates pieces) small
  have whole := ctxFinal_standard (follows_fresh.update pieces.flatten) small
  exact ⟨streamed, whole, (sha256File_reads pieces).trans
    (congrArg Option.some (streamed.trans whole.symm))⟩

theorem sha256_streaming_sample :
    ctxFinal ([[97], [], [98, 99]].foldl ctxUpdate .fresh) = Fips180.sha256 [97, 98, 99] ∧
      sha256 [97, 98, 99] = Fips180.sha256 [97, 98, 99] ∧
      sha256File (some ⟨[[97], [], [98, 99]], false⟩) = some (sha256 [97, 98, 99]) :=
  sha256_streaming [[97], [], [98, 99]] (by decide)

end Idsm.HostProbe.Sha256
