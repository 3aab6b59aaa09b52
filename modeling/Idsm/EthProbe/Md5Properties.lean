import Idsm.EthProbe.Md5

/-! The probe's MD5 is that of RFC 1321, however the bytes come. -/

set_option autoImplicit false

namespace Idsm.EthProbe.Md5

open Idsm.Foundation
open Idsm.Foundation.Rfc1321 (Registers Operation)

section Transform

variable {block : List UInt8} {mixed : UInt32 → UInt32 → UInt32 → UInt32} {word : Nat → Nat}

/-- The words of a block. -/
def words (block : List UInt8) : List UInt32 := (List.range 16).map (loadWord block)

theorem words_getD {k : Nat} (inside : k < 16) : (words block).getD k 0 = Rfc1321.word block k := by
  rw [words, List.getD_eq_getElem?_getD, List.getElem?_map, List.getElem?_range inside,
    Rfc1321.word, Nat.mul_comm 4 k]
  rfl

/-- The operation of a step that reads this word. -/
def operationAt (word : Nat → Nat) (i : Nat) : Operation := ⟨word i, S.getD i 0, K.getD i 0⟩

theorem mix_operates {st : Registers} {i : Nat}
    (selects : selected st i = (mixed st.b st.c st.d, word i)) (inside : word i < 16) :
    mix (words block) st i =
      ⟨st.d, Rfc1321.operate mixed block (operationAt word i) st.a st.b st.c st.d, st.b, st.c⟩ := by
  have sum : st.a + mixed st.b st.c st.d + K.getD i 0 + Rfc1321.word block (word i) =
      st.a + mixed st.b st.c st.d + Rfc1321.word block (word i) + K.getD i 0 := by
    rw [UInt32.add_assoc, UInt32.add_comm (K.getD i 0), ← UInt32.add_assoc]
  rw [mix, selects]
  dsimp only
  rw [words_getD inside, sum]
  rfl

/-- Four steps are four operations, behind which every register has its place again. -/
theorem foldl_mix (groups : Nat) (start : Nat) (st : Registers)
    (selects : ∀ st i, start ≤ i → i < start + 4 * groups →
      selected st i = (mixed st.b st.c st.d, word i) ∧ word i < 16) :
    (List.range' start (4 * groups)).foldl (mix (words block)) st =
      Rfc1321.round mixed block ((List.range' start (4 * groups)).map (operationAt word)) st := by
  induction groups generalizing start st with
  | zero => rfl
  | succ groups ih =>
      have steps : List.range' start (4 * (groups + 1)) = start :: (start + 1) :: (start + 2) ::
          (start + 3) :: List.range' (start + 4) (4 * groups) := rfl
      have step := fun (st : Registers) i (low : start ≤ i) (high : i < start + 4) =>
        @mix_operates block mixed word st i (selects st i low (by omega)).1
          (selects st i low (by omega)).2
      rw [steps, List.foldl_cons, List.foldl_cons, List.foldl_cons, List.foldl_cons,
        step _ start (by omega) (by omega), step _ (start + 1) (by omega) (by omega),
        step _ (start + 2) (by omega) (by omega), step _ (start + 3) (by omega) (by omega),
        ih (start + 4) _ fun st i low high => selects st i (by omega) (by omega)]
      rfl

/-- The tables of the source are those of the rounds. -/
theorem tables :
    Rfc1321.round1 = (List.range' 0 16).map (operationAt id) ∧
      Rfc1321.round2 = (List.range' 16 16).map (operationAt fun i => (5 * i + 1) % 16) ∧
      Rfc1321.round3 = (List.range' 32 16).map (operationAt fun i => (3 * i + 5) % 16) ∧
      Rfc1321.round4 = (List.range' 48 16).map (operationAt fun i => 7 * i % 16) := by
  decide

theorem transform_standard : transform = Rfc1321.compress := by
  funext st block
  have first := fun st => @foldl_mix block Rfc1321.f id 4 0 st fun st i _ high =>
    ⟨by rw [selected, if_pos (by omega)]; rfl, high⟩
  have second := fun st => @foldl_mix block Rfc1321.g (fun i => (5 * i + 1) % 16) 4 16 st
    fun st i low high => ⟨by
      rw [selected, if_neg (by omega), if_pos (by omega), Rfc1321.g, UInt32.and_comm st.d,
        UInt32.and_comm (~~~st.d)], Nat.mod_lt _ (by decide)⟩
  have third := fun st => @foldl_mix block Rfc1321.h (fun i => (3 * i + 5) % 16) 4 32 st
    fun st i low high => ⟨by
      rw [selected, if_neg (by omega), if_neg (by omega), if_pos (by omega)]
      rfl, Nat.mod_lt _ (by decide)⟩
  have fourth := fun st => @foldl_mix block Rfc1321.i (fun i => 7 * i % 16) 4 48 st
    fun st i low high => ⟨by
      rw [selected, if_neg (by omega), if_neg (by omega), if_neg (by omega)]
      rfl, Nat.mod_lt _ (by decide)⟩
  have steps : List.range 64 = List.range' 0 16 ++ List.range' 16 16 ++ List.range' 32 16 ++
      List.range' 48 16 := by decide
  obtain ⟨table1, table2, table3, table4⟩ := tables
  unfold transform Rfc1321.compress
  rw [steps, List.foldl_append, List.foldl_append, List.foldl_append, table1, table2, table3,
    table4]
  rw [show (List.range 16).map (loadWord block) = words block from rfl, first, second, third, fourth]
  simp only [UInt32.add_comm]

end Transform

section Streaming

variable {message : List UInt8} {md : Md5}

/-- The digest was fed the message, and counted its bits. -/
structure Follows (message : List UInt8) (md : Md5) : Prop where
  holds : md.block.Holds transform Rfc1321.initial message
  counted : md.bits = UInt64.ofNat (8 * message.length)

theorem follows_fresh : Follows [] fresh where
  holds := Absorbed.nil
  counted := rfl

theorem Follows.update (follows : Follows message md) (data : List UInt8) :
    Follows (message ++ data) (md.update data) where
  holds := follows.holds.feed data
  counted := by
    change md.bits + UInt64.ofNat data.length * UInt64.ofNat 8 = _
    rw [follows.counted, List.length_append, Nat.mul_add, UInt64.ofNat_add,
      Nat.mul_comm 8 data.length, UInt64.ofNat_mul data.length]

theorem Follows.updates (follows : Follows message md) (pieces : List (List UInt8)) :
    Follows (message ++ pieces.flatten) (pieces.foldl Md5.update md) := by
  induction pieces generalizing message md with
  | nil =>
      rw [List.flatten_nil, List.append_nil]
      exact follows
  | cons piece rest ih =>
      rw [List.flatten_cons, ← List.append_assoc]
      exact ih (follows.update piece)

/-- Of a length beyond 64 bits both take the low ones. -/
theorem lenLe_standard (number : Nat) : lenLe (UInt64.ofNat number) = Rfc1321.lengthBytes number := by
  rw [lenLe, Rfc1321.lengthBytes]
  apply List.map_congr_left
  intro i member
  have inside := List.mem_range.1 member
  have shift : 8 * i % 2 ^ 64 % 64 = 8 * i := by omega
  have high : 2 ^ 64 = 2 ^ (8 * i) * 2 ^ (64 - 8 * i) := by
    rw [← Nat.pow_add]
    congr 1
    omega
  apply UInt8.toNat_inj.1
  rw [UInt64.toNat_toUInt8, UInt64.toNat_shiftRight, UInt64.toNat_ofNat', UInt64.toNat_ofNat', shift,
    UInt8.toNat_ofNat', Nat.shiftRight_eq_div_pow, high, Nat.mod_mul_right_div_self]
  exact Nat.mod_mod_of_dvd _ (Nat.pow_dvd_pow 2 (by omega))

theorem final_standard (follows : Follows message md) : md.final = Rfc1321.md5 message := by
  have closed := follows.holds.close 0x80
  have eight : (lenLe md.bits).length = 8 := by rw [lenLe, List.length_map, List.length_range]
  have full : (((md.block.feed transform [0x80]).padZeros transform 56 (by decide)).bytes ++
      lenLe md.bits).length = 64 := by
    rw [List.length_append, BlockBuffer.length_padZeros, eight]
  have filled := (Absorbed.fill closed (by decide) full).state
  rw [follows.counted, lenLe_standard, transform_standard] at filled
  rw [final, follows.counted, lenLe_standard, transform_standard, ← filled]
  rfl

end Streaming

/-- The digits of the standard's digest. -/
def standardHex (text : String) : String :=
  String.ofList ((Rfc1321.md5 (utf8 text)).flatMap fun (b : UInt8) =>
    [hexDigits.getD (b >>> 4).toNat '0', hexDigits.getD (b &&& 0xF).toNat '0'])

theorem ofText_standard : ofText = standardHex := by
  funext text
  rw [ofText, finalHex, final_standard (follows_fresh.update (utf8 text))]
  rfl

/-- However the bytes come, the digest is the standard's, and so are the hashes of JA3 texts. -/
theorem md5_streaming (pieces : List (List UInt8)) (data : List UInt8) :
    (pieces.foldl Md5.update fresh).final = Rfc1321.md5 pieces.flatten ∧
      Tls.parseTlsClientHello ofText data = Tls.parseTlsClientHello standardHex data :=
  ⟨final_standard (follows_fresh.updates pieces), by rw [ofText_standard]⟩

end Idsm.EthProbe.Md5
