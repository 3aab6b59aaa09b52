import Idsm.EthProbe.SegmentationProperties

/-! The streams on which the TLS and HTTP parsers do not depend on how the bytes were cut. -/

set_option autoImplicit false

namespace Idsm.EthProbe

open Idsm.Foundation

section Messages

variable {fuel : Nat} {acc front rest stream : List UInt8} {byte : UInt8}

theorem parseMessages_nil : parseMessages fuel [] = ⟨[], none, []⟩ := by
  cases fuel with
  | zero => rfl
  | succ fuel => rfl

theorem parseMessages_byte : parseMessages (fuel + 1) [byte] = ⟨[], some httpAlertMalformed, []⟩ :=
  rfl

theorem parseMessages_over (beyond : httpMaxHeader < acc.length) :
    parseMessages (fuel + 1) acc = ⟨[], some httpAlertMalformed, []⟩ := by
  have filled : acc ≠ [] := List.ne_nil_of_length_pos (Nat.zero_lt_of_lt beyond)
  rw [parseMessages, if_neg filled, if_pos beyond]

theorem parseMessages_waits (fits : acc.length ≤ httpMaxHeader) (filled : acc ≠ [])
    (waits : (parseHttp acc).error = .incomplete) :
    parseMessages (fuel + 1) acc = ⟨[], none, acc⟩ := by
  rw [parseMessages, if_neg filled, if_neg (Nat.not_lt.mpr fits)]
  exact if_pos waits

theorem parseMessages_failed (fits : acc.length ≤ httpMaxHeader) (filled : acc ≠ [])
    (whole : (parseHttp acc).error ≠ .incomplete) (failed : (parseHttp acc).error ≠ .ok) :
    parseMessages (fuel + 1) acc = ⟨[], some (parseHttp acc).error.alert, []⟩ := by
  rw [parseMessages, if_neg filled, if_neg (Nat.not_lt.mpr fits)]
  dsimp only
  rw [if_neg whole, if_pos failed]

theorem parseMessages_ok (fits : acc.length ≤ httpMaxHeader) (filled : acc ≠ [])
    (ok : (parseHttp acc).error = .ok) :
    parseMessages (fuel + 1) acc =
      { parseMessages fuel (acc.drop (parseHttp acc).consumed) with
        messages := parseHttp acc ::
          (parseMessages fuel (acc.drop (parseHttp acc).consumed)).messages } := by
  rw [parseMessages, if_neg filled, if_neg (Nat.not_lt.mpr fits)]
  dsimp only
  rw [if_neg (by rw [ok]; exact nofun), if_neg (by rw [ok]; exact not_not.mpr rfl)]

/-- The only streams, other than the empty one, whose cuts cannot be told apart: each raises
one malformed message, and nothing else, wherever it is cut. -/
def HttpSettled (probe : Probe) (direction : ParsedPacket) (stream : List UInt8) : Prop :=
  let msg := parseHttp stream
  looksLikeHttp stream = false ∨
    msg.error = .incomplete ∧ stream.length = httpMaxHeader + 1 ∨
    msg.error = .malformed ∧ stream.length = msg.consumed ∨
    msg.error = .ok ∧ probe.rules.matched direction msg.buffers = [] ∧
      stream.length = msg.consumed + 1

/-- What a prefix of such a stream shows that looks like a message. -/
inductive HttpPrefix (probe : Probe) (direction : ParsedPacket) (front rest : List UInt8) :
    Prop where
  | beyond (long : httpMaxHeader < front.length) (last : rest = [])
  | waits (fits : front.length ≤ httpMaxHeader) (endless : findHeaderEnd front = none)
  | malformed (fits : front.length ≤ httpMaxHeader)
      (error : (parseHttp front).error = .malformed) (last : rest = [])
  | ok (fits : front.length ≤ httpMaxHeader) (error : (parseHttp front).error = .ok)
      (inside : (parseHttp front).consumed ≤ front.length)
      (silent : probe.rules.matched direction (parseHttp front).buffers = [])
      (one : (front ++ rest).length = (parseHttp front).consumed + 1)

variable {probe : Probe} {direction : ParsedPacket}

/-- No message of the stream is longer than a header may be. -/
theorem HttpSettled.length_le (settled : HttpSettled probe direction stream)
    (looks : looksLikeHttp stream = true) : stream.length ≤ httpMaxHeader + 1 := by
  have bound : (parseHttp stream).error ≠ .incomplete →
      (parseHttp stream).consumed ≤ httpMaxHeader := by
    intro found
    obtain ⟨stop, ends⟩ := findHeaderEnd_of_error looks found
    have inside := (findHeaderEnd_eq_some.1 ends).1.inside
    rw [List.length_take] at inside
    rw [parseHttp_consumed looks ends]
    omega
  rcases settled with other | ⟨_, length⟩ | ⟨error, length⟩ | ⟨error, _, length⟩
  · exact absurd looks (Bool.eq_false_iff.mp other)
  · omega
  · have := bound (by rw [error]; exact nofun)
    omega
  · have := bound (by rw [error]; exact nofun)
    omega

theorem HttpSettled.shows (settled : HttpSettled probe direction (front ++ rest))
    (looks : looksLikeHttp front = true) : HttpPrefix probe direction front rest := by
  have whole := @looksLikeHttp_append front rest looks
  have length := settled.length_le whole
  rw [List.length_append] at length
  by_cases fits : front.length ≤ httpMaxHeader
  · cases ends : findHeaderEnd front with
    | none => exact .waits fits ends
    | some stop =>
        have inside := (findHeaderEnd_eq_some.1 ends).1.inside
        have own : findHeaderEnd (front.take httpMaxHeader) = some stop := by
          rw [List.take_of_length_le fits]
          exact ends
        have consumed := parseHttp_consumed looks own
        have error := headerMessage_error (front.take stop)
        rw [← parseHttp_eq looks own] at error
        rw [HttpSettled, parseHttp_append looks fits ends, List.length_append] at settled
        rcases settled with other | ⟨endless, _⟩ | ⟨malformed, stops⟩ | ⟨ok, silent, one⟩
        · exact absurd whole (Bool.eq_false_iff.mp other)
        · rw [endless] at error
          exact absurd error (by decide)
        · exact .malformed fits malformed (List.eq_nil_of_length_eq_zero (by omega))
        · exact .ok fits ok (by omega) silent (by rw [List.length_append]; exact one)
  · exact .beyond (by omega) (List.eq_nil_of_length_eq_zero (by omega))

end Messages

section HttpStream

variable {probe : Probe} {port : UInt16} {ds : DirState} {direction pp : ParsedPacket}
  {past data stream : List UInt8} {chunks : List Chunk}

/-- The port belongs to HTTP. -/
structure HttpPort (probe : Probe) (port : UInt16) : Prop where
  http : port = probe.httpPort ∨ port = probe.httpAltPort
  notTls : port ≠ probe.tlsPort
  notDoip : port ≠ doipPort

theorem HttpPort.feedApp (http : HttpPort probe port) :
    probe.feedApp pp port ds data = probe.feedHttpStream pp ds data := by
  unfold Probe.feedApp
  rw [if_neg http.notDoip, if_neg http.notTls, if_pos http.http]

theorem HttpPort.appAlerts (http : HttpPort probe port) (chunk : Chunk) :
    probe.appAlerts port (ds, chunk) = (probe.feedHttpStream chunk.packet ds chunk.data).2 := by
  rw [Probe.appAlerts, if_neg http.notDoip, http.feedApp]

/-- The rules change nothing that the parser reads. -/
theorem HttpPort.state (http : HttpPort probe port) :
    (probe.handleStreamData pp port ds data).1.httpBad =
        (probe.feedHttpStream pp ds data).1.httpBad ∧
      (probe.handleStreamData pp port ds data).1.httpChecked =
        (probe.feedHttpStream pp ds data).1.httpChecked ∧
      (probe.handleStreamData pp port ds data).1.acc =
        (probe.feedHttpStream pp ds data).1.acc.rtake streamAccCap := by
  unfold Probe.handleStreamData
  dsimp only
  rw [capAcc_acc, http.feedApp]
  refine ⟨?_, ?_, ?_⟩
  · unfold DirState.capAcc
    split
    all_goals
      unfold Probe.feedHttpStream
      dsimp only
      repeat' split
      all_goals rfl
  · unfold DirState.capAcc
    split
    all_goals
      unfold Probe.feedHttpStream
      dsimp only
      repeat' split
      all_goals rfl
  · unfold Probe.feedHttpStream
    dsimp only
    repeat' split
    all_goals rfl

theorem HttpPort.silent (http : HttpPort probe port) (bad : ds.httpBad = true) :
    probe.directionAlerts port ds chunks = [] := by
  have off : ∀ {ds : DirState} {chunk : Chunk}, ds.httpBad = true →
      probe.feedHttpStream chunk.packet ds chunk.data = (ds, []) := fun bad => if_pos bad
  refine @directionAlerts_of_silent probe port ds chunks (fun ds => ds.httpBad = true) ?_ ?_ bad
  · intro ds bad chunk
    rw [http.appAlerts, off bad]
  · intro ds bad chunk
    rw [http.state.1, off bad]
    exact bad

/-- A direction that has seen nothing, or the start of a header. -/
structure HttpWaits (past : List UInt8) (ds : DirState) : Prop where
  acc : ds.acc = past
  good : ds.httpBad = false
  sniffed : past = [] ∧ ds.httpChecked = false ∨ looksLikeHttp past = true
  endless : findHeaderEnd past = none
  fits : past.length ≤ httpMaxHeader

theorem httpWaits_fresh : HttpWaits [] .fresh :=
  ⟨rfl, rfl, .inl ⟨rfl, rfl⟩, by decide, Nat.zero_le _⟩

def malformedAlert (pp : ParsedPacket) : ProbeAlert := makeAlert .http pp httpAlertMalformed

theorem HttpWaits.lost (waits : HttpWaits past ds) (other : looksLikeHttp (past ++ data) = false) :
    probe.feedHttpStream pp ds data =
      ({ ds with acc := past ++ data, httpChecked := true, httpBad := true },
        [malformedAlert pp]) := by
  have unchecked : ds.httpChecked = false := by
    rcases waits.sniffed with ⟨_, unchecked⟩ | looks
    · exact unchecked
    · rw [looksLikeHttp_append looks] at other
      cases other
  unfold Probe.feedHttpStream
  rw [if_neg (by rw [waits.good]; exact nofun)]
  dsimp only
  rw [waits.acc, if_pos ⟨unchecked, other⟩]
  rfl

theorem HttpWaits.reads (waits : HttpWaits past ds) (looks : looksLikeHttp (past ++ data) = true) :
    probe.feedHttpStream pp ds data =
      ({ ds with
          acc := (parseMessages (past ++ data).length (past ++ data)).rest, httpChecked := true },
        probe.httpAlerts pp (parseMessages (past ++ data).length (past ++ data))) := by
  unfold Probe.feedHttpStream
  rw [if_neg (by rw [waits.good]; exact nofun)]
  dsimp only
  rw [waits.acc, if_neg (fun sniff => by rw [looks] at sniff; cases sniff.2)]

/-- A direction whose last message left nothing. -/
structure HttpReady (ds : DirState) : Prop where
  acc : ds.acc = []
  good : ds.httpBad = false
  checked : ds.httpChecked = true

/-- A single byte is taken for a message of its own. -/
theorem HttpReady.byte (ready : HttpReady ds) (byte : UInt8) :
    probe.feedHttpStream pp ds [byte] =
      ({ ds with acc := [], httpChecked := true }, [malformedAlert pp]) := by
  unfold Probe.feedHttpStream
  rw [if_neg (by rw [ready.good]; exact nofun)]
  dsimp only
  rw [ready.acc, if_neg (fun sniff => by rw [ready.checked] at sniff; cases sniff.1)]
  rfl

theorem HttpPort.handled (http : HttpPort probe port) {fed : DirState} {alerts : List ProbeAlert}
    (step : probe.feedHttpStream pp ds data = (fed, alerts)) :
    (probe.handleStreamData pp port ds data).1.httpBad = fed.httpBad ∧
      (probe.handleStreamData pp port ds data).1.httpChecked = fed.httpChecked ∧
      (probe.handleStreamData pp port ds data).1.acc = fed.acc.rtake streamAccCap := by
  have state := @HttpPort.state probe port ds pp data http
  rw [step] at state
  exact state

theorem SameHeader.malformedAlert (same : SameHeader direction pp) :
    malformedAlert pp = malformedAlert direction := same.makeAlert _ _

theorem HttpPort.ready (http : HttpPort probe port) {alerts : List ProbeAlert} {fed : DirState}
    (step : probe.feedHttpStream pp ds data = (fed, alerts)) (empty : fed.acc = [])
    (good : fed.httpBad = false) (checked : fed.httpChecked = true) :
    HttpReady (probe.handleStreamData pp port ds data).1 := by
  obtain ⟨sameBad, sameChecked, acc⟩ := http.handled step
  refine ⟨?_, sameBad.trans good, sameChecked.trans checked⟩
  rw [acc, empty]
  rfl

/-- What is left of a stream that has one byte more. -/
theorem HttpPort.lastByte (http : HttpPort probe port) (ready : HttpReady ds)
    (cuts : Cuts direction stream chunks) (one : stream.length = 1) :
    probe.directionAlerts port ds chunks = [malformedAlert direction] := by
  cases chunks with
  | nil =>
      rw [← cuts.stream] at one
      cases one
  | cons chunk later =>
      have delivered := cuts.delivered chunk List.mem_cons_self
      have lengths := one
      rw [← cuts.stream, streamOf, List.flatMap_cons, List.length_append] at lengths
      have positive := List.length_pos_of_ne_nil delivered
      obtain ⟨byte, single⟩ := List.length_eq_one_iff.mp (by omega : chunk.data.length = 1)
      have none : later = [] := by
        cases later with
        | nil => rfl
        | cons next others =>
            have more := List.length_pos_of_ne_nil
              (cuts.delivered next (List.mem_cons_of_mem _ List.mem_cons_self))
            rw [List.flatMap_cons, List.length_append] at lengths
            omega
      rw [none, directionAlerts_cons, http.appAlerts, single, ready.byte,
        (cuts.oneDirection chunk List.mem_cons_self).malformedAlert]
      rfl

/-- Wherever a settled stream is cut, it raises one malformed message. -/
theorem HttpPort.once (http : HttpPort probe port)
    (settled : HttpSettled probe direction (past ++ stream)) (filled : past ++ stream ≠ [])
    (cuts : Cuts direction stream chunks) (waits : HttpWaits past ds) :
    probe.directionAlerts port ds chunks = [malformedAlert direction] := by
  induction chunks generalizing ds past stream with
  | nil =>
      have none : stream = [] := cuts.stream.symm
      rw [none, List.append_nil] at settled filled
      have looks := (waits.sniffed.resolve_left fun fresh => filled fresh.1)
      have incomplete : (parseHttp past).error = .incomplete := by
        rw [parseHttp_incomplete looks]
        · rfl
        · rw [List.take_of_length_le waits.fits]
          exact waits.endless
      rw [HttpSettled, incomplete, looks] at settled
      have := waits.fits
      rcases settled with other | ⟨_, length⟩ | ⟨error, _⟩ | ⟨error, _⟩
      · cases other
      · omega
      · cases error
      · cases error
  | cons chunk later ih =>
      have same := cuts.oneDirection chunk List.mem_cons_self
      have rest : Cuts direction (streamOf later) later :=
        ⟨fun other member => cuts.oneDirection other (List.mem_cons_of_mem _ member),
          fun other member => cuts.delivered other (List.mem_cons_of_mem _ member), rfl⟩
      have whole : past ++ stream = past ++ chunk.data ++ streamOf later := by
        rw [← cuts.stream, streamOf, List.flatMap_cons, List.append_assoc]
        rfl
      rw [whole] at settled filled
      have delivered := List.length_pos_of_ne_nil (cuts.delivered chunk List.mem_cons_self)
      have front : past ++ chunk.data ≠ [] := by
        intro empty
        rw [(List.append_eq_nil_iff.mp empty).2] at delivered
        cases delivered
      obtain ⟨fuel, length⟩ : ∃ fuel, (past ++ chunk.data).length = fuel + 1 :=
        ⟨_, (Nat.succ_pred_eq_of_pos (List.length_pos_of_ne_nil front)).symm⟩
      rw [directionAlerts_cons, http.appAlerts]
      cases looks : looksLikeHttp (past ++ chunk.data) with
      | false =>
          have step := @HttpWaits.lost probe ds chunk.packet past chunk.data waits looks
          rw [step, http.silent (by rw [(http.handled step).1]), same.malformedAlert]
          rfl
      | true =>
          have step := @HttpWaits.reads probe ds chunk.packet past chunk.data waits looks
          rw [length] at step
          have ended : streamOf later = [] → later = [] := by
            intro empty
            cases later with
            | nil => rfl
            | cons next others =>
                have more := rest.delivered next List.mem_cons_self
                exact absurd (List.append_eq_nil_iff.mp empty).1 more
          cases settled.shows looks with
          | beyond long last =>
              rw [ended last, step, parseMessages_over long, ← same.malformedAlert]
              rfl
          | waits fits endless =>
              have incomplete : (parseHttp (past ++ chunk.data)).error = .incomplete := by
                rw [parseHttp_incomplete looks (by rw [List.take_of_length_le fits]; exact endless)]
                rfl
              rw [parseMessages_waits fits front incomplete] at step
              rw [step]
              refine ih settled filled rest ⟨?_, ?_, .inr looks, endless, fits⟩
              · exact (http.handled step).2.2.trans
                  (rtake_eq_self (fits.trans (by decide : httpMaxHeader ≤ streamAccCap)))
              · exact (http.handled step).1.trans waits.good
          | malformed fits error last =>
              rw [parseMessages_failed fits front (by rw [error]; rintro ⟨⟩)
                (by rw [error]; rintro ⟨⟩), error] at step
              rw [ended last, step, ← same.malformedAlert]
              rfl
          | ok fits error inside silent one =>
              have consumed := List.length_drop
                (i := (parseHttp (past ++ chunk.data)).consumed) (l := past ++ chunk.data)
              rw [List.length_append] at one
              rw [parseMessages_ok fits front error] at step
              have none : probe.ruleAlerts chunk.packet (parseHttp (past ++ chunk.data)).buffers =
                  [] := by
                rw [Probe.ruleAlerts, same.matched, silent]
                rfl
              cases left : (past ++ chunk.data).drop (parseHttp (past ++ chunk.data)).consumed with
              | nil =>
                  rw [left] at step consumed
                  rw [parseMessages_nil] at step
                  have ready := http.ready step rfl waits.good rfl
                  rw [step, http.lastByte ready rest (by change 0 = _ at consumed; omega)]
                  unfold Probe.httpAlerts
                  rw [List.flatMap_singleton, none]
                  rfl
              | cons byte more =>
                  rw [left] at step consumed
                  rw [List.length_cons] at consumed
                  have single : more = [] := List.eq_nil_of_length_eq_zero (by omega)
                  have last : streamOf later = [] := List.eq_nil_of_length_eq_zero (by omega)
                  have four := (looksLikeHttp_iff.1 looks).1
                  obtain ⟨less, rfl⟩ : ∃ less, fuel = less + 1 := ⟨fuel - 1, by omega⟩
                  rw [single, parseMessages_byte] at step
                  rw [ended last, step, ← same.malformedAlert]
                  unfold Probe.httpAlerts
                  rw [List.flatMap_singleton, none]
                  rfl

theorem HttpPort.split (http : HttpPort probe port) {first : UInt8} {rest : List UInt8} :
    probe.directionAlerts port .fresh (([first] :: [rest]).map (chunkOf direction)) =
      [malformedAlert direction] := by
  have unseen : looksLikeHttp ([] ++ [first]) = false := rfl
  have step := @HttpWaits.lost probe .fresh direction [] [first] httpWaits_fresh unseen
  rw [List.map_cons, directionAlerts_cons, http.appAlerts]
  change (probe.feedHttpStream direction .fresh [first]).2 ++ probe.directionAlerts port
    (probe.handleStreamData direction port .fresh [first]).1 _ = _
  rw [step, http.silent (by rw [(http.handled step).1])]
  rfl

theorem HttpPort.bytes (http : HttpPort probe port) (ready : HttpReady ds) {rest : List UInt8} :
    probe.directionAlerts port ds ((rest.map ([·])).map (chunkOf direction)) =
      List.replicate rest.length (malformedAlert direction) := by
  induction rest generalizing ds with
  | nil => rfl
  | cons byte later ih =>
      have step := @HttpReady.byte probe ds direction ready byte
      have next := http.ready step rfl ready.good rfl
      rw [List.map_cons, List.map_cons, directionAlerts_cons, http.appAlerts]
      change (probe.feedHttpStream direction ds [byte]).2 ++ probe.directionAlerts port
        (probe.handleStreamData direction port ds [byte]).1 _ = _
      rw [ih next, step]
      rfl

theorem HttpPort.whole (http : HttpPort probe port) (looks : looksLikeHttp stream = true) :
    probe.directionAlerts port .fresh ([stream].map (chunkOf direction)) =
      probe.httpAlerts direction (parseMessages stream.length stream) := by
  have step := @HttpWaits.reads probe .fresh direction [] stream httpWaits_fresh looks
  rw [List.nil_append] at step
  rw [List.map_singleton, directionAlerts_cons, http.appAlerts]
  change (probe.feedHttpStream direction .fresh stream).2 ++ [] = _
  rw [step, List.append_nil]

/-- After a first chunk that leaves nothing, each byte of the rest is a malformed message. -/
theorem HttpPort.cut (http : HttpPort probe port) {front rest : List UInt8} {parsed : HttpParsed}
    (looks : looksLikeHttp front = true) (reads : parseMessages front.length front = parsed)
    (empty : parsed.rest = []) :
    probe.directionAlerts port .fresh
        ((front :: rest.map ([·])).map (chunkOf direction)) =
      probe.httpAlerts direction parsed ++ List.replicate rest.length (malformedAlert direction) := by
  have step := @HttpWaits.reads probe .fresh direction [] front httpWaits_fresh looks
  rw [List.nil_append, reads] at step
  have ready := http.ready step empty rfl rfl
  rw [List.map_cons, directionAlerts_cons, http.appAlerts]
  change (probe.feedHttpStream direction .fresh front).2 ++ probe.directionAlerts port
    (probe.handleStreamData direction port .fresh front).1 _ = _
  rw [http.bytes ready, step]

end HttpStream

section Independence

variable {probe : Probe} {port : UInt16} {direction : ParsedPacket} {stream : List UInt8}

/-- Any two ways to cut the stream raise the same. -/
def SegmentationIndependent (probe : Probe) (port : UInt16) (direction : ParsedPacket)
    (stream : List UInt8) : Prop :=
  ∀ chunks others, Cuts direction stream chunks → Cuts direction stream others →
    probe.directionAlerts port .fresh chunks = probe.directionAlerts port .fresh others

/-- A first chunk of one byte is never taken for HTTP, so every cut raises what this one does. -/
theorem HttpPort.cutsOnce (http : HttpPort probe port) (long : 2 ≤ stream.length)
    (same : SegmentationIndependent probe port direction stream) {pieces : List (List UInt8)}
    (filled : ∀ piece ∈ pieces, piece ≠ []) (whole : pieces.flatten = stream) :
    probe.directionAlerts port .fresh (pieces.map (chunkOf direction)) =
      [malformedAlert direction] := by
  obtain ⟨first, rest, rfl⟩ : ∃ first rest, stream = first :: rest := by
    cases stream with
    | nil => cases long
    | cons first rest => exact ⟨first, rest, rfl⟩
  have more : rest ≠ [] := by
    intro empty
    rw [empty] at long
    exact absurd long (Nat.not_le.mpr (Nat.lt_succ_self 1))
  have alone : Cuts direction (first :: rest) (([first] :: [rest]).map (chunkOf direction)) := by
    have cuts := @cuts_chunksOf direction ([first] :: [rest]) (by simp [more])
    rw [List.flatten_cons, List.flatten_singleton] at cuts
    exact cuts
  rw [same _ _ (whole ▸ cuts_chunksOf filled) alone, http.split]

theorem cut_filled {front rest : List UInt8} (filled : front ≠ []) :
    ∀ piece ∈ front :: rest.map ([·]), piece ≠ [] := by
  intro piece member
  rcases List.mem_cons.mp member with rfl | byte
  · exact filled
  · obtain ⟨one, _, rfl⟩ := List.mem_map.mp byte
    exact List.cons_ne_nil _ _

theorem cut_flatten {front rest : List UInt8} :
    (front :: rest.map ([·])).flatten = front ++ rest := by
  rw [List.flatten_cons]
  congr 1
  induction rest with
  | nil => rfl
  | cons byte later ih => rw [List.map_cons, List.flatten_cons, ih]; rfl

theorem append_replicate_eq_one {alerts : List ProbeAlert} {alert : ProbeAlert} {count : Nat}
    (one : alerts ++ List.replicate count alert = [alert]) :
    alerts = [] ∧ count = 1 ∨ alerts = [alert] ∧ count = 0 := by
  cases alerts with
  | nil =>
      have length := congrArg List.length one
      rw [List.nil_append, List.length_replicate] at length
      exact .inl ⟨rfl, length⟩
  | cons first later =>
      obtain ⟨rfl, rest⟩ := List.cons.inj one
      obtain ⟨none, zero⟩ := List.append_eq_nil_iff.mp rest
      rw [none]
      exact .inr ⟨rfl, by simpa using zero⟩

/-- A header that grew too long in one chunk may have grown by its last byte only. -/
theorem HttpPort.overlong (http : HttpPort probe port)
    (same : SegmentationIndependent probe port direction stream)
    (looks : looksLikeHttp stream = true)
    (long : httpMaxHeader < stream.length) : stream.length = httpMaxHeader + 1 := by
  have split := List.take_append_drop (httpMaxHeader + 1) stream
  have length : (stream.take (httpMaxHeader + 1)).length = httpMaxHeader + 1 :=
    List.length_take_of_le long
  have frontLooks : looksLikeHttp (stream.take (httpMaxHeader + 1)) = true := by
    obtain ⟨_, start, known, starts⟩ := looksLikeHttp_iff.1 looks
    refine looksLikeHttp_iff.2 ⟨by rw [length]; decide, start, known, ?_⟩
    refine List.prefix_of_prefix_length_le starts (List.take_prefix _ _) ?_
    have short : ∀ start ∈ httpStarts, start.length ≤ httpMaxHeader + 1 := by decide
    rw [length]
    exact short start known
  have reads : parseMessages (stream.take (httpMaxHeader + 1)).length
      (stream.take (httpMaxHeader + 1)) = ⟨[], some httpAlertMalformed, []⟩ := by
    rw [length]
    exact parseMessages_over (by rw [length]; exact Nat.lt_succ_self _)
  have once := http.cutsOnce (by change 8192 < _ at long; omega) same
    (cut_filled (List.ne_nil_of_length_pos (by rw [length]; exact Nat.succ_pos _)))
    (cut_flatten.trans split)
  rw [http.cut frontLooks reads rfl] at once
  rcases append_replicate_eq_one once with ⟨none, _⟩ | ⟨_, zero⟩
  · cases none
  · rw [List.length_drop] at zero
    omega

theorem HttpPort.settled_of_ends (http : HttpPort probe port) {stop : Nat}
    (same : SegmentationIndependent probe port direction stream)
    (looks : looksLikeHttp stream = true)
    (ends : findHeaderEnd (stream.take httpMaxHeader) = some stop) :
    (parseHttp stream).error = .malformed ∧ stream.length = (parseHttp stream).consumed ∨
      (parseHttp stream).error = .ok ∧
        probe.rules.matched direction (parseHttp stream).buffers = [] ∧
        stream.length = (parseHttp stream).consumed + 1 := by
  have inside := (findHeaderEnd_eq_some.1 ends).1.inside
  rw [List.length_take] at inside
  have endsAt : EndsAt stream stop := by
    have there := (findHeaderEnd_eq_some.1 ends).1
    rw [← List.take_append_drop httpMaxHeader stream]
    exact (endsAt_append (by rw [List.length_take]; omega)).mpr there
  have length : (stream.take (stop + 4)).length = stop + 4 := List.length_take_of_le (by omega)
  have fits : (stream.take (stop + 4)).length ≤ httpMaxHeader := by omega
  have frontLooks := looksLikeHttp_take looks endsAt
  have frontEnds : findHeaderEnd (stream.take (stop + 4)) = some stop := by
    have split : stream.take httpMaxHeader =
        stream.take (stop + 4) ++ (stream.take httpMaxHeader).drop (stop + 4) := by
      have parts := List.take_append_drop (stop + 4) (stream.take httpMaxHeader)
      rw [List.take_take, Nat.min_eq_left (by omega)] at parts
      exact parts.symm
    rw [split] at ends
    exact findHeaderEnd_append.2 ⟨ends, by omega⟩
  have parses : parseHttp stream = parseHttp (stream.take (stop + 4)) := by
    have whole := @parseHttp_append _ (stream.drop (stop + 4)) _ frontLooks fits frontEnds
    rw [List.take_append_drop] at whole
    exact whole
  have consumed := parseHttp_consumed looks ends
  have filled : stream.take (stop + 4) ≠ [] :=
    List.ne_nil_of_length_pos (by rw [length]; exact Nat.succ_pos _)
  have once := http.cutsOnce (by omega) same (cut_filled filled)
    (cut_flatten.trans (List.take_append_drop _ _))
  have error := headerMessage_error (stream.take stop)
  rw [← parseHttp_eq looks ends] at error
  have drops : (stream.drop (stop + 4)).length = stream.length - (stop + 4) := List.length_drop
  rcases error with ok | malformed | tooLong
  · have reads : parseMessages (stream.take (stop + 4)).length (stream.take (stop + 4)) =
        ⟨[parseHttp stream], none, []⟩ := by
      rw [length, parseMessages_ok fits filled (by rw [← parses]; exact ok), ← parses, consumed,
        List.drop_of_length_le (Nat.le_of_eq length), parseMessages_nil]
    rw [http.cut frontLooks reads rfl] at once
    unfold Probe.httpAlerts at once
    rw [List.flatMap_singleton, Option.map_none, Option.toList_none, List.append_nil] at once
    rcases append_replicate_eq_one once with ⟨none, one⟩ | ⟨alert, _⟩
    · exact .inr ⟨ok, List.map_eq_nil_iff.mp none, by omega⟩
    · obtain ⟨rule, _, made⟩ := List.mem_map.mp (alert ▸ List.mem_singleton_self _ :
        malformedAlert direction ∈ probe.ruleAlerts direction (parseHttp stream).buffers)
      cases congrArg ProbeAlert.detectorType made
  · have reads : parseMessages (stream.take (stop + 4)).length (stream.take (stop + 4)) =
        ⟨[], some httpAlertMalformed, []⟩ := by
      rw [length, parseMessages_failed fits filled (by rw [← parses, malformed]; exact nofun)
        (by rw [← parses, malformed]; exact nofun), ← parses, malformed]
      rfl
    rw [http.cut frontLooks reads rfl] at once
    rcases append_replicate_eq_one once with ⟨none, _⟩ | ⟨_, zero⟩
    · cases none
    · exact .inl ⟨malformed, by omega⟩
  · have reads : parseMessages (stream.take (stop + 4)).length (stream.take (stop + 4)) =
        ⟨[], some httpAlertUriTooLong, []⟩ := by
      rw [length, parseMessages_failed fits filled (by rw [← parses, tooLong]; exact nofun)
        (by rw [← parses, tooLong]; exact nofun), ← parses, tooLong]
      rfl
    rw [http.cut frontLooks reads rfl] at once
    rcases append_replicate_eq_one once with ⟨none, _⟩ | ⟨alert, _⟩
    · cases none
    · have code : httpAlertUriTooLong = httpAlertMalformed :=
        congrArg ProbeAlert.aux (List.cons.inj alert).1
      exact absurd code (by decide)

theorem HttpPort.settled (http : HttpPort probe port)
    (same : SegmentationIndependent probe port direction stream) :
    HttpSettled probe direction stream := by
  cases looks : looksLikeHttp stream with
  | false => exact .inl looks
  | true =>
      refine .inr ?_
      have four := (looksLikeHttp_iff.1 looks).1
      have filled : stream ≠ [] := List.ne_nil_of_length_pos (by omega)
      cases ends : findHeaderEnd (stream.take httpMaxHeader) with
      | none =>
          have incomplete : (parseHttp stream).error = .incomplete := by
            rw [parseHttp_incomplete looks ends]
            rfl
          refine .inl ⟨incomplete, ?_⟩
          by_cases fits : stream.length ≤ httpMaxHeader
          · have once := http.cutsOnce (by omega) same
              (fun piece member => List.mem_singleton.mp member ▸ filled) List.flatten_singleton
            rw [http.whole looks, show stream.length = stream.length - 1 + 1 by omega,
              parseMessages_waits fits filled incomplete] at once
            cases once
          · exact http.overlong same looks (Nat.lt_of_not_le fits)
      | some stop =>
          exact .inr (http.settled_of_ends same looks ends)

theorem HttpPort.independent_iff (http : HttpPort probe port) :
    SegmentationIndependent probe port direction stream ↔
      stream = [] ∨ HttpSettled probe direction stream := by
  constructor
  · exact fun same => .inr (http.settled same)
  · intro condition chunks others cuts otherCuts
    by_cases empty : stream = []
    · have none : ∀ {chunks}, Cuts direction stream chunks → chunks = [] := by
        intro chunks cuts
        cases chunks with
        | nil => rfl
        | cons chunk later =>
            have whole := cuts.stream.trans empty
            exact absurd (List.append_eq_nil_iff.mp whole).1
              (cuts.delivered chunk List.mem_cons_self)
      rw [none cuts, none otherCuts]
    · have settled := condition.resolve_left empty
      have once : ∀ {chunks}, Cuts direction stream chunks →
          probe.directionAlerts port .fresh chunks = [malformedAlert direction] := fun cuts =>
        @HttpPort.once probe port .fresh direction [] stream _ http settled empty cuts
          httpWaits_fresh
      rw [once cuts, once otherCuts]

theorem TlsPort.independent_iff (tls : TlsPort probe port) :
    SegmentationIndependent probe port direction stream ↔ TlsQuiet probe direction stream := by
  constructor
  · intro same
    by_contra loud
    rw [TlsQuiet, not_or, not_or, Bool.not_eq_false, ← tlsAlerts_eq_nil] at loud
    obtain ⟨looks, complete, raised⟩ := loud
    have three := looksLikeTls_length looks
    obtain ⟨first, rest, rfl⟩ : ∃ first rest, stream = first :: rest := by
      cases stream with
      | nil => cases three
      | cons first rest => exact ⟨first, rest, rfl⟩
    have more : rest ≠ [] := by
      intro empty
      rw [empty] at three
      exact absurd three (Nat.not_le.mpr (Nat.lt_succ_of_lt (Nat.lt_succ_self 1)))
    have together := @cuts_chunksOf direction [first :: rest] (by simp)
    have alone := @cuts_chunksOf direction ([first] :: [rest]) (by simp [more])
    rw [List.flatten_singleton] at together
    rw [List.flatten_cons, List.flatten_singleton] at alone
    have equal := same _ _ together alone
    rw [tls.whole looks complete, tls.split] at equal
    exact raised equal
  · intro quiet chunks others cuts otherCuts
    rw [tls.quiet quiet cuts (.inr (.inl rfl)), tls.quiet quiet otherCuts (.inr (.inl rfl))]

/-- On which streams the alerts of the port's parser do not depend on the cuts. -/
def CutsDoNotMatter (probe : Probe) (port : UInt16) (direction : ParsedPacket)
    (stream : List UInt8) : Prop :=
  if port = doipPort then True
  else if port = probe.tlsPort then TlsQuiet probe direction stream
  else if port = probe.httpPort ∨ port = probe.httpAltPort then
    stream = [] ∨ HttpSettled probe direction stream
  else True

theorem segmentation_independent_iff (probe : Probe) (port : UInt16) (direction : ParsedPacket)
    (stream : List UInt8) :
    SegmentationIndependent probe port direction stream ↔
      CutsDoNotMatter probe port direction stream := by
  have still : (∀ pp ds data, port = doipPort ∨ (probe.feedApp pp port ds data).2 = []) →
      SegmentationIndependent probe port direction stream := by
    intro silent chunks others _ _
    have none : ∀ ds chunks, probe.directionAlerts port ds chunks = [] := by
      intro ds chunks
      refine @directionAlerts_of_silent probe port ds chunks (fun _ => True) ?_
        (fun _ _ => trivial) trivial
      intro ds _ chunk
      unfold Probe.appAlerts
      split
      next => rfl
      next other => exact (silent _ _ _).resolve_left other
    rw [none, none]
  unfold CutsDoNotMatter
  split
  next doip => exact iff_of_true (still fun _ _ _ => .inl doip) trivial
  next notDoip =>
    split
    next tls => exact TlsPort.independent_iff ⟨tls, notDoip⟩
    next notTls =>
      split
      next http => exact HttpPort.independent_iff ⟨http, notTls, notDoip⟩
      next notHttp =>
        refine iff_of_true (still fun pp ds data => .inr ?_) trivial
        unfold Probe.feedApp
        rw [if_neg notDoip, if_neg notTls, if_neg notHttp]

/-- "GET / HTTP/1.1" and an empty line. -/
def requestSample : List UInt8 :=
  [71, 69, 84, 32, 47, 32, 72, 84, 84, 80, 47, 49, 46, 49, 13, 10, 13, 10]

/-- In one chunk it is a request that no rule asks for; its first byte alone is no HTTP. -/
theorem first_byte_loses_request :
    ¬SegmentationIndependent (probeSample [] nofun) 80 (chunkSample []).packet requestSample := by
  intro same
  have whole := same _ _
    (@cuts_chunksOf (chunkSample []).packet [requestSample] (by decide))
    (@cuts_chunksOf (chunkSample []).packet [requestSample.take 1, requestSample.drop 1]
      (by decide))
  exact absurd whole (by decide)

end Independence

end Idsm.EthProbe
