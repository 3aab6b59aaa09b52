import Mathlib

/-! Iterated hash functions: the blocks of a message, a buffer that is fed piece by piece, and
padding to whole blocks. -/

set_option autoImplicit false

namespace Idsm.Foundation

section Blocks

variable {size : Nat} {front back message : List UInt8}

/-- The whole blocks of a message. -/
def blocks (size : Nat) (message : List UInt8) : List (List UInt8) :=
  (List.range (message.length / size)).map fun index => (message.drop (index * size)).take size

/-- The bytes behind the last whole block. -/
def remainder (size : Nat) (message : List UInt8) : List UInt8 :=
  message.drop (message.length / size * size)

@[simp] theorem blocks_nil : blocks size [] = [] := by
  rw [blocks, List.length_nil, Nat.zero_div]
  rfl

@[simp] theorem remainder_nil : remainder size [] = [] := List.drop_nil

theorem blocks_short (short : message.length < size) : blocks size message = [] := by
  rw [blocks, Nat.div_eq_of_lt short]
  rfl

theorem remainder_short (short : message.length < size) : remainder size message = message := by
  rw [remainder, Nat.div_eq_of_lt short, Nat.zero_mul]
  rfl

theorem length_remainder : (remainder size message).length = message.length % size := by
  have division := Nat.div_add_mod' message.length size
  rw [remainder, List.length_drop]
  omega

private theorem count_cons (positive : 0 < size) (full : front.length = size) :
    (front ++ back).length / size = back.length / size + 1 := by
  rw [List.length_append, full, Nat.add_comm, Nat.add_div_right _ positive]

private theorem drop_cons (full : front.length = size) (index : Nat) :
    (front ++ back).drop ((index + 1) * size) = back.drop (index * size) := by
  rw [Nat.succ_mul, Nat.add_comm, ← full, List.drop_length_add_append]

theorem blocks_cons (positive : 0 < size) (full : front.length = size) :
    blocks size (front ++ back) = front :: blocks size back := by
  rw [blocks, count_cons positive full, List.range_succ_eq_map, List.map_cons, List.map_map,
    Nat.zero_mul, List.drop_zero, List.take_left' full]
  congr 1
  apply List.map_congr_left
  intro index _
  exact congrArg (List.take size) (drop_cons full index)

theorem remainder_cons (positive : 0 < size) (full : front.length = size) :
    remainder size (front ++ back) = remainder size back := by
  rw [remainder, count_cons positive full, drop_cons full, remainder]

/-- A message is shorter than a block or starts with one. -/
theorem block_induction {property : List UInt8 → Prop} (positive : 0 < size)
    (short : ∀ message, message.length < size → property message)
    (block : ∀ front back, front.length = size → property back → property (front ++ back))
    (message : List UInt8) : property message := by
  induction length : message.length using Nat.strongRecOn generalizing message with
  | ind count ih =>
      by_cases small : message.length < size
      · exact short message small
      · have full : (message.take size).length = size := by
          rw [List.length_take]
          omega
        have fewer : (message.drop size).length < count := by
          rw [List.length_drop]
          omega
        have whole := block _ _ full (ih _ fewer (message.drop size) rfl)
        rwa [List.take_append_drop] at whole

theorem blocks_append (positive : 0 < size) (first second : List UInt8) :
    blocks size (first ++ second) = blocks size first ++ blocks size (remainder size first ++ second) := by
  induction first using block_induction positive with
  | short message small => rw [blocks_short small, remainder_short small, List.nil_append]
  | block front back full ih =>
      rw [List.append_assoc, blocks_cons positive full, ih, blocks_cons positive full,
        remainder_cons positive full, List.cons_append]

theorem remainder_append (positive : 0 < size) (first second : List UInt8) :
    remainder size (first ++ second) = remainder size (remainder size first ++ second) := by
  induction first using block_induction positive with
  | short message small => rw [remainder_short small]
  | block front back full ih =>
      rw [List.append_assoc, remainder_cons positive full, ih, remainder_cons positive full]

end Blocks

section Streaming

variable {κ : Type} {size : Nat} {compress : κ → List UInt8 → κ} {start state : κ}
  {message data buffered : List UInt8}

/-- The state has taken in the whole blocks of the message, and the rest waits. -/
structure Absorbed (size : Nat) (compress : κ → List UInt8 → κ) (start : κ)
    (message : List UInt8) (state : κ) (buffered : List UInt8) : Prop where
  state : (blocks size message).foldl compress start = state
  rest : remainder size message = buffered

theorem Absorbed.nil : Absorbed size compress start [] start [] :=
  ⟨by rw [blocks_nil]; rfl, remainder_nil⟩

/-- Bytes that do not fill the block wait too. -/
theorem Absorbed.wait (absorbed : Absorbed size compress start message state buffered)
    (positive : 0 < size) (room : (buffered ++ data).length < size) :
    Absorbed size compress start (message ++ data) state (buffered ++ data) where
  state := by
    rw [blocks_append positive, absorbed.rest, blocks_short room, List.append_nil, absorbed.state]
  rest := by rw [remainder_append positive, absorbed.rest, remainder_short room]

/-- Bytes that fill the block are taken in with it. -/
theorem Absorbed.fill (absorbed : Absorbed size compress start message state buffered)
    (positive : 0 < size) (full : (buffered ++ data).length = size) :
    Absorbed size compress start (message ++ data) (compress state (buffered ++ data)) [] where
  state := by
    rw [blocks_append positive, absorbed.rest, ← List.append_nil (buffered ++ data),
      blocks_cons positive full, blocks_nil, List.foldl_append, absorbed.state,
      List.append_nil]
    rfl
  rest := by
    rw [remainder_append positive, absorbed.rest, ← List.append_nil (buffered ++ data),
      remainder_cons positive full, remainder_nil]

theorem Absorbed.length (absorbed : Absorbed size compress start message state buffered) :
    buffered.length = message.length % size := by
  rw [← absorbed.rest, length_remainder]

end Streaming

section Buffer

/-- A state, and the bytes of the block that is not full yet. -/
structure BlockBuffer (κ : Type) (size : Nat) where
  state : κ
  bytes : List UInt8
  room : bytes.length < size

namespace BlockBuffer

variable {κ : Type} {size : Nat} (compress : κ → List UInt8 → κ) (buffer : BlockBuffer κ size)
  (data : List UInt8)

/-- The bytes go to the end; a full block is compressed. -/
def put (fits : buffer.bytes.length + data.length ≤ size) : BlockBuffer κ size :=
  if full : (buffer.bytes ++ data).length = size then
    ⟨compress buffer.state (buffer.bytes ++ data), [], Nat.zero_lt_of_lt buffer.room⟩
  else
    ⟨buffer.state, buffer.bytes ++ data, by
      rw [List.length_append] at full ⊢
      omega⟩

/-- How much of the data the block takes. -/
def take : Nat := min data.length (size - buffer.bytes.length)

theorem take_fits : buffer.bytes.length + (data.take (buffer.take data)).length ≤ size := by
  have room := buffer.room
  rw [List.length_take, take]
  omega

/-- As much as the block takes, until nothing is left. -/
def feed (buffer : BlockBuffer κ size) (data : List UInt8) : BlockBuffer κ size :=
  if data = [] then buffer
  else feed (buffer.put compress (data.take (buffer.take data)) (buffer.take_fits data))
    (data.drop (buffer.take data))
termination_by data.length
decreasing_by
  next filled =>
    have room := buffer.room
    have left := List.length_pos_iff.2 filled
    rw [List.length_drop, take]
    omega

theorem feed_nil : buffer.feed compress [] = buffer := by
  rw [feed, if_pos rfl]

variable {compress buffer data}

theorem length_feed_byte (byte : UInt8) : (buffer.feed compress [byte]).bytes.length =
    if buffer.bytes.length + 1 = size then 0 else buffer.bytes.length + 1 := by
  have room := buffer.room
  have whole : buffer.take [byte] = 1 := by
    change min 1 (size - buffer.bytes.length) = 1
    omega
  rw [feed, if_neg (List.cons_ne_nil byte [])]
  simp only [whole, List.take_succ_cons, List.take_zero, List.drop_succ_cons, List.drop_zero]
  rw [feed_nil]
  unfold put
  simp only [List.length_append, List.length_singleton]
  split
  next full => rfl
  next partly => rw [List.length_append, List.length_singleton]

/-- Zeros until the buffer has this length. -/
def padZeros (compress : κ → List UInt8 → κ) (target : Nat) (fits : target < size)
    (buffer : BlockBuffer κ size) : BlockBuffer κ size :=
  if buffer.bytes.length = target then buffer
  else padZeros compress target fits (buffer.feed compress [0])
termination_by
  if buffer.bytes.length ≤ target then target - buffer.bytes.length
  else target + size - buffer.bytes.length
decreasing_by
  have room := buffer.room
  rw [length_feed_byte]
  split <;> split <;> split <;> omega

theorem length_padZeros {target : Nat} {fits : target < size} :
    (buffer.padZeros compress target fits).bytes.length = target := by
  induction buffer using padZeros.induct compress target fits with
  | case1 buffer here =>
      rw [padZeros, if_pos here]
      exact here
  | case2 buffer elsewhere ih =>
      rw [padZeros, if_neg elsewhere]
      exact ih

section Laws

variable {start : κ} {message : List UInt8}

/-- The buffer stands for the message. -/
def Holds (compress : κ → List UInt8 → κ) (start : κ) (message : List UInt8)
    (buffer : BlockBuffer κ size) : Prop :=
  Absorbed size compress start message buffer.state buffer.bytes

theorem Holds.put (holds : buffer.Holds compress start message)
    (fits : buffer.bytes.length + data.length ≤ size) :
    (buffer.put compress data fits).Holds compress start (message ++ data) := by
  have positive := Nat.zero_lt_of_lt buffer.room
  unfold BlockBuffer.put
  split
  next full => exact Absorbed.fill holds positive full
  next partly =>
    rw [List.length_append] at partly
    exact Absorbed.wait holds positive (by rw [List.length_append]; omega)

/-- The loop takes in all of the data. -/
theorem Holds.feed (holds : buffer.Holds compress start message) (data : List UInt8) :
    (buffer.feed compress data).Holds compress start (message ++ data) := by
  induction buffer, data using feed.induct compress generalizing message with
  | case1 buffer =>
      rw [List.append_nil, feed_nil]
      exact holds
  | case2 buffer data filled ih =>
      have fed := ih (holds.put (buffer.take_fits data))
      rw [List.append_assoc, List.take_append_drop] at fed
      rw [BlockBuffer.feed, if_neg filled]
      exact fed

/-- The zeros that a buffer of this length still takes. -/
def zerosLeft (size target length : Nat) : Nat :=
  if length ≤ target then target - length else target + size - length

theorem Holds.padZeros (holds : buffer.Holds compress start message) (target : Nat)
    (fits : target < size) :
    (buffer.padZeros compress target fits).Holds compress start
      (message ++ List.replicate (zerosLeft size target buffer.bytes.length) 0) := by
  induction buffer using padZeros.induct compress target fits generalizing message with
  | case1 buffer here =>
      rw [BlockBuffer.padZeros, if_pos here, zerosLeft, if_pos (Nat.le_of_eq here), here, Nat.sub_self,
        List.replicate_zero, List.append_nil]
      exact holds
  | case2 buffer elsewhere ih =>
      have room := buffer.room
      have padded := ih (holds.feed [0])
      have more : zerosLeft size target buffer.bytes.length =
          zerosLeft size target (buffer.feed compress [0]).bytes.length + 1 := by
        rw [length_feed_byte, zerosLeft, zerosLeft]
        split <;> split <;> split <;> omega
      rw [List.append_assoc, List.singleton_append, ← List.replicate_succ, ← more] at padded
      rw [BlockBuffer.padZeros, if_neg elsewhere]
      exact padded

end Laws

end BlockBuffer

end Buffer

section Padding

/-- The zeros behind the byte that closes the message: the fewest with which the length, of
eight bytes, ends a block of 64. -/
def paddingZeros (length : Nat) : Nat := (119 - length % 64) % 64

theorem paddingZeros_fills (length : Nat) : (length + 1 + paddingZeros length + 8) % 64 = 0 := by
  unfold paddingZeros
  omega

theorem paddingZeros_least {length zeros : Nat} (fills : (length + 1 + zeros + 8) % 64 = 0) :
    paddingZeros length ≤ zeros := by
  unfold paddingZeros
  omega

variable {κ : Type} {compress : κ → List UInt8 → κ} {start : κ} {message : List UInt8}
  {buffer : BlockBuffer κ 64}

/-- The closing byte, and zeros up to the place of the length. -/
theorem BlockBuffer.Holds.close (holds : buffer.Holds compress start message) (mark : UInt8) :
    ((buffer.feed compress [mark]).padZeros compress 56 (by decide)).Holds compress start
      (message ++ [mark] ++ List.replicate (paddingZeros message.length) 0) := by
  have zeros : zerosLeft 64 56 (buffer.feed compress [mark]).bytes.length =
      paddingZeros message.length := by
    rw [length_feed_byte, Absorbed.length holds, zerosLeft, paddingZeros]
    split <;> split <;> omega
  have closed := (holds.feed [mark]).padZeros 56 (by decide)
  rwa [zeros] at closed

end Padding

end Idsm.Foundation
