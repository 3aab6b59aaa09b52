import Idsm.EthProbe.Bytes
import Idsm.EthProbe.Direction
import Idsm.Foundation.Execution
import Idsm.Foundation.Tail

/-! The DoIP messages that are framed from a stream that comes in chunks. -/

set_option autoImplicit false

namespace Idsm.EthProbe

open Idsm.Foundation

section Framing

/-- A header whose length is that of the payload, and one that the framer accepts. -/
structure WellFramed (message : List UInt8) : Prop where
  header : 8 ≤ message.length
  payload : message.length = 8 + (rd32 message 4).toNat
  withinLimit : (rd32 message 4).toNat ≤ doipMaxPayload

def totalLength (messages : List (List UInt8)) : Nat := (messages.map List.length).sum

variable {acc message : List UInt8} {messages : List (List UInt8)} {fuel : Nat}

/-- No byte is framed twice. -/
theorem frameDoip_length :
    totalLength (frameDoip fuel acc).messages + (frameDoip fuel acc).rest.length ≤ acc.length := by
  induction fuel generalizing acc with
  | zero => simp [frameDoip, totalLength]
  | succ fuel ih =>
      rw [frameDoip]
      split
      · simp [totalLength]
      · dsimp only
        split
        · simp [totalLength]
        · split
          · simp [totalLength]
          next enough =>
            have others := @ih (acc.drop (8 + (rd32 acc 4).toNat))
            rw [totalLength, List.map_cons, List.sum_cons, ← totalLength, List.length_take]
            rw [List.length_drop] at others
            dsimp only
            omega

/-- What the framer does with the beginning of some messages. -/
structure FramesPrefix (messages : List (List UInt8)) (acc : List UInt8) (framed : DoipFramed)
    (done more : List (List UInt8)) : Prop where
  split : messages = done ++ more
  messages : framed.messages = done
  withinLimit : framed.implausible = false
  rest : acc = done.flatten ++ framed.rest
  unfinished : ∀ first ∈ more.head?, framed.rest.length < first.length

theorem frameDoip_prefix (framed : ∀ message ∈ messages, WellFramed message)
    (beginning : acc <+: messages.flatten) (fueled : acc.length ≤ fuel) :
    ∃ done more, FramesPrefix messages acc (frameDoip fuel acc) done more := by
  induction messages generalizing acc fuel with
  | nil =>
      obtain rfl := List.prefix_nil.mp beginning
      have none : frameDoip fuel [] = ⟨[], false, []⟩ := by
        cases fuel <;> rfl
      rw [none]
      exact ⟨[], [], rfl, rfl, rfl, rfl, fun first there => nomatch there⟩
  | cons message messages ih =>
      have shape := framed message List.mem_cons_self
      rw [List.flatten_cons] at beginning
      by_cases whole : message.length ≤ acc.length
      · obtain ⟨later, rfl⟩ := List.prefix_of_prefix_length_le
          (List.prefix_append message messages.flatten) beginning whole
        have behind : later <+: messages.flatten := (List.prefix_append_right_inj message).mp beginning
        have header := shape.header
        rw [List.length_append] at fueled
        obtain ⟨fuel, rfl⟩ := Nat.exists_eq_succ_of_ne_zero (n := fuel) (by omega)
        obtain ⟨done, more, frames⟩ := @ih later fuel
          (fun other member => framed other (List.mem_cons_of_mem _ member)) behind (by omega)
        have step : frameDoip (fuel + 1) (message ++ later) =
            { frameDoip fuel later with messages := message :: (frameDoip fuel later).messages } := by
          have enough : ¬(message ++ later).length < 8 := by
            rw [List.length_append]
            omega
          rw [frameDoip, if_neg enough]
          dsimp only
          rw [rd32_append (by omega), if_neg (Nat.not_lt.mpr shape.withinLimit), if_neg,
            ← shape.payload, List.take_left, List.drop_left]
          rw [List.length_append, ← shape.payload]
          omega
        rw [step]
        refine ⟨message :: done, more, by rw [frames.split]; rfl, ?_, frames.withinLimit, ?_,
          frames.unfinished⟩
        · rw [frames.messages]
        · rw [List.flatten_cons, List.append_assoc, ← frames.rest]
      · have stays : frameDoip fuel acc = ⟨[], false, acc⟩ := by
          cases fuel with
          | zero => rfl
          | succ fuel =>
              rw [frameDoip]
              by_cases short : acc.length < 8
              · rw [if_pos short]
              · have inside : acc <+: message := List.prefix_of_prefix_length_le beginning
                  (List.prefix_append _ _) (by omega)
                obtain ⟨missing, rfl⟩ := inside
                have payload := shape.payload
                have withinLimit := shape.withinLimit
                rw [rd32_append (by omega)] at payload withinLimit
                rw [if_neg short]
                dsimp only
                rw [if_neg (Nat.not_lt.mpr withinLimit), if_pos (by omega)]
        rw [stays]
        refine ⟨[], message :: messages, rfl, rfl, rfl, rfl, fun first there => ?_⟩
        obtain rfl := Option.some.inj there
        exact Nat.lt_of_not_le whole

end Framing

section Runs

variable {probe : Probe} {ds : DirState} {pp : ParsedPacket} {data : List UInt8}
  {messages : List (List UInt8)} {chunks : List Chunk}

/-- The messages that one chunk completes. -/
def framedBy (met : DirState × Chunk) : DoipFramed :=
  let acc := met.1.acc ++ met.2.data
  frameDoip acc.length acc

/-- Everything that is inspected of a direction to the DoIP port. -/
def inspected (probe : Probe) (ds : DirState) (chunks : List Chunk) : List (List UInt8) :=
  (probe.chunkStates doipPort ds chunks).flatMap fun met => (framedBy met).messages

/-- How many of the first bytes belong to a message that is not complete. -/
def unfinished : List (List UInt8) → Nat → Nat
  | [], length => length
  | message :: later, length =>
      if message.length ≤ length then unfinished later (length - message.length) else length

/-- No chunk leaves more of a message than an accumulator may hold. -/
def RemaindersFit (messages : List (List UInt8)) (length : Nat) (chunks : List Chunk) : Prop :=
  ∀ before after, chunks = before ++ after →
    unfinished messages (length + (streamOf before).length) ≤ streamAccCap

theorem handleStreamData_doip_acc :
    (probe.handleStreamData pp doipPort ds data).1.acc =
      (framedBy (ds, ⟨pp, data⟩)).rest.rtake streamAccCap := by
  have fed : ∀ state, probe.feedApp pp doipPort state data = feedDoipStream pp state data :=
    fun _ => if_pos rfl
  unfold Probe.handleStreamData
  dsimp only
  rw [capAcc_acc, fed]
  rfl

/-- What is inspected of a direction was accumulated or delivered. -/
theorem inspected_length :
    totalLength (inspected probe ds chunks) ≤ ds.acc.length + (streamOf chunks).length := by
  induction chunks generalizing ds with
  | nil => exact Nat.zero_le _
  | cons chunk later ih =>
      have framed : totalLength (framedBy (ds, chunk)).messages +
          (framedBy (ds, chunk)).rest.length ≤ (ds.acc ++ chunk.data).length := frameDoip_length
      have others := @ih (probe.handleStreamData chunk.packet doipPort ds chunk.data).1
      rw [handleStreamData_doip_acc, length_rtake] at others
      unfold inspected totalLength at others ⊢
      unfold totalLength at framed
      rw [Probe.chunkStates, List.flatMap_cons, List.map_append, List.sum_append, streamOf,
        List.flatMap_cons, ← streamOf, List.length_append]
      rw [List.length_append] at framed
      change _ ≤ min (framedBy (ds, chunk)).rest.length streamAccCap + _ at others
      omega

theorem unfinished_append {done more : List (List UInt8)} {length : Nat} :
    unfinished (done ++ more) (done.flatten.length + length) = unfinished more length := by
  induction done with
  | nil =>
      rw [List.flatten_nil, List.length_nil, Nat.zero_add]
      rfl
  | cons message done ih =>
      rw [List.cons_append, unfinished, List.flatten_cons, List.length_append,
        if_pos (by omega)]
      rw [← ih]
      congr 1
      omega

theorem unfinished_of_short {length : Nat}
    (short : ∀ first ∈ messages.head?, length < first.length) :
    unfinished messages length = length := by
  cases messages with
  | nil => rfl
  | cons message later => exact if_neg (Nat.not_le.mpr (short message rfl))

theorem flatten_length (messages : List (List UInt8)) :
    messages.flatten.length = totalLength messages := List.length_flatten

/-- From any state that holds the beginning of the first message. -/
theorem inspected_iff (framed : ∀ message ∈ messages, WellFramed message)
    (stream : ds.acc ++ streamOf chunks = messages.flatten)
    (short : ∀ first ∈ messages.head?, ds.acc.length < first.length)
    (fits : ds.acc.length ≤ streamAccCap) :
    inspected probe ds chunks = messages ↔ RemaindersFit messages ds.acc.length chunks := by
  induction chunks generalizing ds messages with
  | nil =>
      have remains : RemaindersFit messages ds.acc.length [] := by
        intro before after split
        obtain ⟨rfl, rfl⟩ := List.append_eq_nil_iff.mp split.symm
        rw [streamOf, List.flatMap_nil, List.length_nil, Nat.add_zero, unfinished_of_short short]
        exact fits
      refine iff_of_true ?_ remains
      cases messages with
      | nil => rfl
      | cons message later =>
          have longer := congrArg List.length stream
          have first := short message rfl
          rw [streamOf, List.flatMap_nil, List.append_nil, List.flatten_cons,
            List.length_append] at longer
          omega
  | cons chunk later ih =>
      have acc : ds.acc ++ chunk.data <+: messages.flatten := by
        rw [← stream, streamOf, List.flatMap_cons, ← List.append_assoc]
        exact List.prefix_append _ _
      obtain ⟨done, more, frames⟩ := frameDoip_prefix framed acc (Nat.le_refl _)
      generalize met : framedBy (ds, chunk) = step
      have same : frameDoip (ds.acc ++ chunk.data).length (ds.acc ++ chunk.data) = step := met
      rw [same] at frames
      have split := frames.split
      subst split
      have onward : step.rest ++ streamOf later = more.flatten := by
        have whole := stream
        rw [streamOf, List.flatMap_cons, ← streamOf, ← List.append_assoc, frames.rest,
          List.flatten_append, List.append_assoc] at whole
        exact List.append_cancel_left whole
      have length : ds.acc.length + chunk.data.length = done.flatten.length + step.rest.length := by
        rw [← List.length_append, frames.rest, List.length_append]
      have here : inspected probe ds (chunk :: later) = done ++
          inspected probe (probe.handleStreamData chunk.packet doipPort ds chunk.data).1 later := by
        rw [inspected, Probe.chunkStates, List.flatMap_cons, met, frames.messages, ← inspected]
      have shift : ∀ before : List Chunk,
          unfinished (done ++ more) (ds.acc.length + (streamOf (chunk :: before)).length) =
            unfinished more (step.rest.length + (streamOf before).length) := by
        intro before
        rw [← @unfinished_append done more, streamOf, List.flatMap_cons, ← streamOf,
          List.length_append]
        congr 1
        omega
      rw [here, List.append_cancel_left_eq]
      have left : (probe.handleStreamData chunk.packet doipPort ds chunk.data).1.acc =
          step.rest.rtake streamAccCap := by
        rw [← met]
        exact handleStreamData_doip_acc
      by_cases small : step.rest.length ≤ streamAccCap
      · have kept : (probe.handleStreamData chunk.packet doipPort ds chunk.data).1.acc =
            step.rest := by
          rw [left, rtake_eq_self small]
        have rest := @ih (probe.handleStreamData chunk.packet doipPort ds chunk.data).1 more
          (fun message member => framed message (List.mem_append_right _ member))
          (by rw [kept]; exact onward) (by rw [kept]; exact frames.unfinished)
          (by rw [kept]; exact small)
        rw [rest, kept]
        constructor
        · intro remains before after division
          cases before with
          | nil =>
              rw [streamOf, List.flatMap_nil, List.length_nil, Nat.add_zero,
                unfinished_of_short short]
              exact fits
          | cons first before =>
              obtain ⟨rfl, behind⟩ := List.cons.inj division
              rw [shift]
              exact remains before after behind
        · intro remains before after division
          rw [← shift]
          exact remains (chunk :: before) after (by rw [division]; rfl)
      · refine iff_of_false (fun whole => ?_) (fun remains => ?_)
        · have bound := @inspected_length probe
            (probe.handleStreamData chunk.packet doipPort ds chunk.data).1 later
          have total := congrArg List.length onward
          rw [whole, left, length_rtake] at bound
          rw [List.length_append, flatten_length] at total
          omega
        · have beyond := remains [chunk] later rfl
          rw [shift, streamOf, List.flatMap_nil, List.length_nil, Nat.add_zero,
            unfinished_of_short frames.unfinished] at beyond
          exact small beyond

/-- Every message is inspected once, in order, exactly when no chunk ends more than the
accumulator's capacity into a message. -/
theorem doip_inspected_iff (probe : Probe) (framed : ∀ message ∈ messages, WellFramed message)
    (stream : streamOf chunks = messages.flatten) :
    inspected probe .fresh chunks = messages ↔ RemaindersFit messages 0 chunks := by
  refine inspected_iff framed stream ?_ (Nat.zero_le _)
  intro first there
  have shape := (framed first (List.mem_of_mem_head? there)).header
  exact Nat.lt_of_lt_of_le (by decide) shape

theorem unfinished_le {length : Nat} : unfinished messages length ≤ length := by
  induction messages generalizing length with
  | nil => exact Nat.le_refl _
  | cons message later ih =>
      rw [unfinished]
      split
      · exact ih.trans (Nat.sub_le _ _)
      · exact Nat.le_refl _

theorem remaindersFit_of_short {length : Nat}
    (short : length + (streamOf chunks).length ≤ streamAccCap) :
    RemaindersFit messages length chunks := by
  rintro before after rfl
  refine unfinished_le.trans (Nat.le_trans (Nat.add_le_add_left ?_ length) short)
  rw [streamOf, streamOf, List.flatMap_append, List.length_append]
  exact Nat.le_add_right _ _

def doipHeader (length : List UInt8) : List UInt8 := [2, 0xFD, 0x80, 1] ++ length

/-- Two messages in three chunks. -/
def doipChunks : List Chunk :=
  [chunkSample [2, 0xFD, 0x80], chunkSample [1, 0, 0, 0, 1, 7, 2],
    chunkSample [0xFD, 0x80, 1, 0, 0, 0, 0]]

theorem doip_inspected_sample :
    inspected (probeSample [] (by decide)) .fresh doipChunks =
      [doipHeader [0, 0, 0, 1] ++ [7], doipHeader [0, 0, 0, 0]] := by
  have fits : ∀ messages, RemaindersFit messages 0 doipChunks :=
    fun _ => remaindersFit_of_short (by decide)
  have stream : streamOf doipChunks =
      [doipHeader [0, 0, 0, 1] ++ [7], doipHeader [0, 0, 0, 0]].flatten := rfl
  refine (doip_inspected_iff _ ?_ stream).mpr (fits _)
  intro message member
  rcases List.mem_pair.mp member with rfl | rfl
  · exact ⟨by decide, by decide, by decide⟩
  · exact ⟨by decide, by decide, by decide⟩

/-- A message of 65545 bytes. -/
def largeMessage : List UInt8 := doipHeader [0, 1, 0, 1] ++ List.replicate 65537 0

/-- All of it but its last byte. -/
def largeChunks : List Chunk :=
  [chunkSample (doipHeader [0, 1, 0, 1] ++ List.replicate 65536 0), chunkSample [0]]

theorem doip_large_message_lost :
    WellFramed largeMessage ∧ streamOf largeChunks = [largeMessage].flatten ∧
      inspected (probeSample [] (by decide)) .fresh largeChunks ≠ [largeMessage] := by
  have header : (doipHeader [0, 1, 0, 1]).length = 8 := rfl
  have payload : (rd32 largeMessage 4).toNat = 65537 := by
    rw [largeMessage, rd32_append (by rw [header])]
    decide
  have length : largeMessage.length = 65545 := by
    rw [largeMessage, List.length_append, List.length_replicate, header]
  have shape : WellFramed largeMessage :=
    ⟨by rw [length]; decide, by rw [length, payload], by rw [payload]; decide⟩
  have stream : streamOf largeChunks = [largeMessage].flatten := by
    have last : (List.replicate 65536 0 ++ [0] : List UInt8) = List.replicate 65537 0 :=
      List.replicate_succ'.symm
    rw [List.flatten_singleton, largeMessage, ← last, ← List.append_assoc]
    rfl
  refine ⟨shape, stream, fun whole => ?_⟩
  have short : ∀ first ∈ [largeMessage].head?, DirState.fresh.acc.length < first.length := by
    intro first there
    obtain rfl := Option.some.inj there
    rw [length]
    decide
  have framed : ∀ message ∈ [largeMessage], WellFramed message :=
    fun message member => List.mem_singleton.mp member ▸ shape
  have fits := (@inspected_iff (probeSample [] (by decide)) .fresh _ largeChunks framed stream short
    (Nat.zero_le _)).mp whole
  have beyond := fits [chunkSample (doipHeader [0, 1, 0, 1] ++ List.replicate 65536 0)]
    [chunkSample [0]] rfl
  have first : (streamOf [chunkSample (doipHeader [0, 1, 0, 1] ++
      List.replicate 65536 0)]).length = 65544 := by
    rw [streamOf, List.flatMap_singleton, chunkSample, List.length_append, List.length_replicate,
      header]
  have partly : ∀ message ∈ [largeMessage].head?, 0 + 65544 < message.length := by
    intro message there
    obtain rfl := Option.some.inj there
    rw [length]
    decide
  rw [first] at beyond
  change unfinished [largeMessage] (0 + 65544) ≤ streamAccCap at beyond
  rw [unfinished_of_short partly] at beyond
  exact absurd beyond (by decide)

end Runs

end Idsm.EthProbe
