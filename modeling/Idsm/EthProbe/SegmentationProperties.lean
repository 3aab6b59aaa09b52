import Idsm.EthProbe.Bytes
import Idsm.EthProbe.Direction

/-! What the TLS and HTTP parsers raise for one stream, however it is cut into chunks. -/

set_option autoImplicit false

namespace Idsm.EthProbe

open Idsm.Foundation

section Alerts

variable {probe : Probe} {port : UInt16} {ds : DirState} {direction pp : ParsedPacket}
  {chunks : List Chunk}

/-- What the TLS and HTTP parsers raise for a chunk; the DoIP port leads to neither. -/
def Probe.appAlerts (probe : Probe) (port : UInt16) (met : DirState × Chunk) : List ProbeAlert :=
  if port = doipPort then [] else (probe.feedApp met.2.packet port met.1 met.2.data).2

/-- Behind the rule hits of a chunk stand the alerts of its parser. -/
theorem handleStreamData_alerts {met : DirState × Chunk} (other : port ≠ doipPort) :
    (probe.handleStreamData met.2.packet port met.1 met.2.data).2 =
      ((probe.streamHits met.2.packet met.1 met.2.data).map fun rule =>
        makeAlert .ruleHit met.2.packet rule.sid) ++ probe.appAlerts port met := by
  unfold Probe.handleStreamData Probe.appAlerts
  rw [if_neg other]
  dsimp only
  congr 1
  unfold Probe.feedApp Probe.feedTlsStream Probe.feedHttpStream feedDoipStream
  dsimp only
  repeat' split
  all_goals rfl

def Probe.directionAlerts (probe : Probe) (port : UInt16) (ds : DirState) (chunks : List Chunk) :
    List ProbeAlert :=
  (probe.chunkStates port ds chunks).flatMap (probe.appAlerts port)

/-- The chunks are nonempty and give the stream in packets of one direction. -/
structure Cuts (direction : ParsedPacket) (stream : List UInt8) (chunks : List Chunk) : Prop where
  oneDirection : ∀ chunk ∈ chunks, SameHeader direction chunk.packet
  delivered : ∀ chunk ∈ chunks, chunk.data ≠ []
  stream : streamOf chunks = stream

theorem directionAlerts_cons (chunk : Chunk) (later : List Chunk) :
    probe.directionAlerts port ds (chunk :: later) =
      probe.appAlerts port (ds, chunk) ++ probe.directionAlerts port
        (probe.handleStreamData chunk.packet port ds chunk.data).1 later := by
  rw [Probe.directionAlerts, Probe.chunkStates, List.flatMap_cons]
  rfl

/-- A state in which nothing more is raised. -/
theorem directionAlerts_of_silent {silent : DirState → Prop}
    (quiet : ∀ {ds}, silent ds → ∀ chunk, probe.appAlerts port (ds, chunk) = [])
    (stays : ∀ {ds}, silent ds → ∀ chunk : Chunk,
      silent (probe.handleStreamData chunk.packet port ds chunk.data).1)
    (here : silent ds) : probe.directionAlerts port ds chunks = [] := by
  induction chunks generalizing ds with
  | nil => rfl
  | cons chunk later ih =>
      rw [directionAlerts_cons, quiet here, ih (stays here chunk)]
      rfl

theorem SameHeader.makeAlert (same : SameHeader direction pp) (detectorType : DetectorType)
    (aux : UInt32) : makeAlert detectorType pp aux = makeAlert detectorType direction aux := by
  unfold Idsm.EthProbe.makeAlert
  rw [same.l4Proto, same.srcPort, same.dstPort, same.srcIp, same.dstIp]

/-- One packet of the direction may carry any bytes. -/
def chunkOf (direction : ParsedPacket) (data : List UInt8) : Chunk := ⟨direction, data⟩

theorem cuts_chunksOf {pieces : List (List UInt8)} (some : ∀ piece ∈ pieces, piece ≠ []) :
    Cuts direction pieces.flatten (pieces.map (chunkOf direction)) := by
  refine ⟨fun chunk member => ?_, fun chunk member => ?_, ?_⟩
  · obtain ⟨piece, _, rfl⟩ := List.mem_map.mp member
    exact ⟨rfl, rfl, rfl, rfl, rfl, rfl, rfl, rfl⟩
  · obtain ⟨piece, there, rfl⟩ := List.mem_map.mp member
    exact some piece there
  · rw [streamOf, List.flatMap_map]
    exact List.flatMap_id

end Alerts

section Tls

variable {probe : Probe} {port : UInt16} {ds : DirState} {direction pp : ParsedPacket}
  {front rest data stream : List UInt8} {chunks : List Chunk}

theorem looksLikeTls_append (long : 3 ≤ front.length) :
    looksLikeTls (front ++ rest) = looksLikeTls front := by
  have longer : ¬(front ++ rest).length < 3 := by
    rw [List.length_append]
    omega
  unfold looksLikeTls
  rw [if_neg longer, if_neg (Nat.not_lt.mpr long), byteAt_append (by omega),
    byteAt_append (by omega), byteAt_append (by omega)]

theorem looksLikeTls_length (looks : looksLikeTls data = true) : 3 ≤ data.length := by
  by_contra short
  rw [looksLikeTls, if_pos (by omega)] at looks
  cases looks

/-- What was parsed of a prefix stands when more bytes follow. -/
theorem parseTlsClientHello_append (looks : looksLikeTls front = true)
    (complete : (parseTlsClientHello front).error ≠ .truncated) :
    parseTlsClientHello (front ++ rest) = parseTlsClientHello front := by
  have same := @looksLikeTls_append front rest (looksLikeTls_length looks)
  unfold parseTlsClientHello at complete ⊢
  dsimp only at complete ⊢
  have seen : ¬looksLikeTls front = false := by simp [looks]
  rw [if_neg seen] at complete
  rw [same, if_neg seen, if_neg seen]
  by_cases short : front.length < 5
  · rw [if_pos short] at complete
    exact absurd rfl complete
  · rw [if_neg short] at complete ⊢
    rw [if_neg (by rw [List.length_append]; omega), byteAt_append (by omega),
      rd16_append (by omega)]
    by_cases other : byteAt front 0 ≠ 22
    · rw [if_pos other, if_pos other]
    · rw [if_neg other] at complete ⊢
      by_cases missing : front.length < 5 + (rd16 front 3).toNat
      · rw [if_pos missing] at complete
        exact absurd rfl complete
      · rw [if_neg missing, if_neg other, if_neg (by rw [List.length_append]; omega)]
        by_cases tiny : (rd16 front 3).toNat < 4
        · rw [if_pos (.inl tiny), if_pos (.inl tiny)]
        · rw [byteAt_append (by omega), slice_append (by omega)]

/-- The stream raises no alert: it shows no whole first record, or a valid hello of a recent
version that does not stay inside the vehicle. -/
def TlsQuiet (probe : Probe) (direction : ParsedPacket) (stream : List UInt8) : Prop :=
  let hello := parseTlsClientHello stream
  looksLikeTls stream = false ∨ hello.error = .truncated ∨
    hello.valid = true ∧ probe.internal direction = false ∧ 0x0303 ≤ hello.clientVersion

theorem tlsAlerts_eq_nil {hello : TlsClientHello} :
    probe.tlsAlerts pp hello = [] ↔
      hello.valid = true ∧ probe.internal pp = false ∧ 0x0303 ≤ hello.clientVersion := by
  unfold Probe.tlsAlerts
  cases hello.valid with
  | false => simp
  | true => simp

theorem SameHeader.tlsAlerts (same : SameHeader direction pp) (hello : TlsClientHello) :
    probe.tlsAlerts pp hello = probe.tlsAlerts direction hello := by
  unfold Probe.tlsAlerts Probe.internal
  rw [same.makeAlert, same.makeAlert, same.makeAlert, same.srcIp, same.dstIp, same.isIpv6]

/-- The port belongs to TLS. -/
structure TlsPort (probe : Probe) (port : UInt16) : Prop where
  tls : port = probe.tlsPort
  other : port ≠ doipPort

theorem TlsPort.feedApp (tls : TlsPort probe port) :
    probe.feedApp pp port ds data = probe.feedTlsStream pp ds data := by
  unfold Probe.feedApp
  rw [if_neg tls.other, if_pos tls.tls]

theorem TlsPort.appAlerts (tls : TlsPort probe port) (chunk : Chunk) :
    probe.appAlerts port (ds, chunk) = (probe.feedTlsStream chunk.packet ds chunk.data).2 := by
  rw [Probe.appAlerts, if_neg tls.other, tls.feedApp]

theorem TlsPort.state (tls : TlsPort probe port) :
    (probe.handleStreamData pp port ds data).1.tlsDone =
        (probe.feedTlsStream pp ds data).1.tlsDone ∧
      (probe.handleStreamData pp port ds data).1.acc =
        (probe.feedTlsStream pp ds data).1.acc.rtake streamAccCap := by
  unfold Probe.handleStreamData
  dsimp only
  rw [capAcc_acc, tls.feedApp]
  constructor
  · unfold DirState.capAcc
    split
    all_goals
      unfold Probe.feedTlsStream
      dsimp only
      repeat' split
      all_goals rfl
  · unfold Probe.feedTlsStream
    dsimp only
    repeat' split
    all_goals rfl

theorem feedTlsStream_of_done (done : ds.tlsDone = true) :
    probe.feedTlsStream pp ds data = (ds, []) := if_pos done

theorem TlsPort.silent (tls : TlsPort probe port) (done : ds.tlsDone = true) :
    probe.directionAlerts port ds chunks = [] := by
  refine @directionAlerts_of_silent probe port ds chunks (fun ds => ds.tlsDone = true) ?_ ?_ done
  · intro ds done chunk
    rw [tls.appAlerts, feedTlsStream_of_done done]
  · intro ds done chunk
    rw [tls.state.1, feedTlsStream_of_done done]
    exact done

/-- A first byte that no record starts with. -/
def Lost (acc : List UInt8) : Prop := ∃ first later, acc = first :: later ∧ (first < 20 ∨ 23 < first)

theorem Lost.looks (lost : Lost front) : looksLikeTls (front ++ rest) = false := by
  obtain ⟨first, later, rfl, outside⟩ := lost
  unfold looksLikeTls
  split
  · rfl
  · exact if_pos outside

theorem drop_eq_byteAt {index : Nat} (inside : index < front.length) :
    front.drop index = byteAt front index :: front.drop (index + 1) := by
  rw [List.drop_eq_getElem_cons inside, byteAt, List.getD_eq_getElem _ _ inside]

theorem ite_not_truncated {c : Prop} [Decidable c] {yes no : TlsClientHello}
    (first : yes.error ≠ .truncated) (second : no.error ≠ .truncated) :
    (if c then yes else no).error ≠ .truncated := by
  split
  · exact first
  · exact second

/-- The whole record is there. -/
theorem parseHelloBody_not_truncated (body : List UInt8) :
    (parseHelloBody body).error ≠ .truncated := by
  have extensions : ∀ rest, parseExtensions rest ≠ .truncated := by
    intro rest
    unfold parseExtensions
    dsimp only
    split
    · split
      · exact nofun
      · split <;> exact nofun
    · exact nofun
  unfold parseHelloBody
  refine ite_not_truncated nofun (ite_not_truncated nofun (ite_not_truncated nofun ?_))
  refine ite_not_truncated nofun (ite_not_truncated nofun (ite_not_truncated nofun ?_))
  exact ite_not_truncated nofun (extensions _)

/-- A record that waits for more bytes is that of a handshake and not complete. -/
theorem length_of_truncated (long : 5 ≤ front.length)
    (waits : (parseTlsClientHello front).error = .truncated) :
    front.length < 5 + (rd16 front 3).toNat := by
  by_contra whole
  refine absurd waits ?_
  unfold parseTlsClientHello
  refine ite_not_truncated nofun ?_
  rw [if_neg (by omega)]
  refine ite_not_truncated nofun ?_
  rw [if_neg whole]
  exact ite_not_truncated nofun (parseHelloBody_not_truncated _)

/-- A record that was cut off in front is no record any more. -/
theorem lost_of_trimmed (looks : looksLikeTls front = true)
    (waits : (parseTlsClientHello front).error = .truncated) (beyond : streamAccCap < front.length) :
    Lost (front.rtake streamAccCap) := by
  have long : 65536 < front.length := beyond
  have missing := length_of_truncated (by omega) waits
  have high := rd16_toNat front 3
  have low := (byteAt front (3 + 1)).toNat_lt
  have bound := (rd16 front 3).toNat_lt
  have versions : byteAt front 1 = 3 ∧ byteAt front 2 ≤ 4 := by
    unfold looksLikeTls at looks
    split at looks
    · cases looks
    · split at looks
      · cases looks
      · simpa using looks
  have kept : front.rtake streamAccCap = front.drop (front.length - 65536) := rfl
  have first := @drop_eq_byteAt front (front.length - 65536) (by omega)
  refine ⟨byteAt front (front.length - 65536), _, kept.trans first, ?_⟩
  rcases (by omega : front.length - 65536 = 1 ∨ front.length - 65536 = 2 ∨
    front.length - 65536 = 3) with one | two | three
  · rw [one, versions.1]
    exact .inl (by decide)
  · rw [two]
    exact .inl (UInt8.lt_of_le_of_lt versions.2 (by decide))
  · rw [three]
    refine .inr (UInt8.lt_iff_toNat_lt.mpr ?_)
    change 23 < (byteAt front 3).toNat
    omega

/-- The state of a direction that has not decided: all bytes so far, or bytes that are no
record. -/
def TlsWaits (past : List UInt8) (ds : DirState) : Prop :=
  ds.tlsDone = true ∨ ds.acc = past ∨ Lost ds.acc

theorem TlsPort.quiet (tls : TlsPort probe port) {past : List UInt8}
    (quiet : TlsQuiet probe direction (past ++ stream)) (cuts : Cuts direction stream chunks)
    (waits : TlsWaits past ds) : probe.directionAlerts port ds chunks = [] := by
  induction chunks generalizing ds past stream with
  | nil => rfl
  | cons chunk later ih =>
      by_cases done : ds.tlsDone = true
      · exact tls.silent done
      · have same := cuts.oneDirection chunk List.mem_cons_self
        have rest : Cuts direction (streamOf later) later :=
          ⟨fun other member => cuts.oneDirection other (List.mem_cons_of_mem _ member),
            fun other member => cuts.delivered other (List.mem_cons_of_mem _ member), rfl⟩
        have whole : past ++ stream = past ++ chunk.data ++ streamOf later := by
          rw [← cuts.stream, streamOf, List.flatMap_cons, List.append_assoc]
          rfl
        obtain ⟨tlsDone, acc⟩ := @TlsPort.state probe port ds chunk.packet chunk.data tls
        have step : (probe.feedTlsStream chunk.packet ds chunk.data).2 = [] ∧
            TlsWaits (past ++ chunk.data)
              (probe.handleStreamData chunk.packet port ds chunk.data).1 := by
          unfold TlsWaits
          rw [tlsDone, acc]
          unfold Probe.feedTlsStream
          rw [if_neg done]
          dsimp only
          rcases waits with already | here | lost
          · exact absurd already done
          · rw [here]
            cases looks : looksLikeTls (past ++ chunk.data) with
            | false => exact ⟨rfl, .inl rfl⟩
            | true =>
                rw [if_neg (by simp)]
                by_cases truncated : (parseTlsClientHello (past ++ chunk.data)).error = .truncated
                · rw [if_pos truncated]
                  refine ⟨rfl, .inr ?_⟩
                  by_cases fits : (past ++ chunk.data).length ≤ streamAccCap
                  · exact .inl (rtake_eq_self fits)
                  · exact .inr (lost_of_trimmed looks truncated (Nat.lt_of_not_le fits))
                · rw [if_neg truncated]
                  refine ⟨?_, .inl rfl⟩
                  rw [whole, TlsQuiet, parseTlsClientHello_append looks truncated,
                    looksLikeTls_append (looksLikeTls_length looks), looks] at quiet
                  rw [same.tlsAlerts, tlsAlerts_eq_nil]
                  exact (quiet.resolve_left (by simp)).resolve_left truncated
          · rw [if_pos lost.looks]
            exact ⟨rfl, .inl rfl⟩
        rw [directionAlerts_cons, tls.appAlerts, step.1, List.nil_append]
        rw [whole] at quiet
        exact ih quiet rest step.2

/-- A first chunk of one byte is taken for something else than TLS. -/
theorem TlsPort.split (tls : TlsPort probe port) {first : UInt8} :
    probe.directionAlerts port .fresh (([first] :: [rest]).map (chunkOf direction)) = [] := by
  have unseen : looksLikeTls [first] = false := rfl
  have step : probe.feedTlsStream direction .fresh [first] =
      ({ DirState.fresh with acc := [first], tlsDone := true }, []) := by
    unfold Probe.feedTlsStream
    rw [if_neg (by decide)]
    exact if_pos unseen
  rw [List.map_cons, directionAlerts_cons, tls.appAlerts]
  change (probe.feedTlsStream direction .fresh [first]).2 ++ _ = _
  rw [step]
  refine tls.silent ?_
  rw [tls.state.1]
  change (probe.feedTlsStream direction .fresh [first]).1.tlsDone = true
  rw [step]

theorem TlsPort.whole (tls : TlsPort probe port) (looks : looksLikeTls stream = true)
    (complete : (parseTlsClientHello stream).error ≠ .truncated) :
    probe.directionAlerts port .fresh ([stream].map (chunkOf direction)) =
      probe.tlsAlerts direction (parseTlsClientHello stream) := by
  rw [List.map_singleton, directionAlerts_cons, tls.appAlerts]
  unfold Probe.feedTlsStream
  rw [if_neg (by decide)]
  change (if looksLikeTls stream = false then _ else _ : DirState × List ProbeAlert).2 ++ [] = _
  rw [if_neg (by simp [looks]), List.append_nil]
  exact congrArg Prod.snd (if_neg complete)

end Tls

section HttpParser

variable {front rest data : List UInt8} {stop : Nat}

/-- What a message starts with. -/
def httpStarts : List (List UInt8) := kMethods.map (· ++ [32]) ++ [httpSlash]

theorem looksLikeHttp_iff :
    looksLikeHttp data = true ↔ 4 ≤ data.length ∧ ∃ start ∈ httpStarts, start <+: data := by
  unfold looksLikeHttp httpStarts
  split
  next short => exact iff_of_false (by simp) fun found => absurd found.1 (by omega)
  next long =>
    rw [and_iff_right (by omega), Bool.or_eq_true, List.any_eq_true]
    constructor
    · rintro (⟨method, known, starts⟩ | slash)
      · exact ⟨method ++ [32], by simp [known], List.isPrefixOf_iff_prefix.mp starts⟩
      · exact ⟨httpSlash, by simp, List.isPrefixOf_iff_prefix.mp slash⟩
    · rintro ⟨start, known, starts⟩
      rcases List.mem_append.mp known with method | slash
      · obtain ⟨name, there, rfl⟩ := List.mem_map.mp method
        exact .inl ⟨name, there, List.isPrefixOf_iff_prefix.mpr starts⟩
      · obtain rfl := List.mem_singleton.mp slash
        exact .inr (List.isPrefixOf_iff_prefix.mpr starts)

theorem looksLikeHttp_append (looks : looksLikeHttp front = true) :
    looksLikeHttp (front ++ rest) = true := by
  obtain ⟨long, start, known, starts⟩ := looksLikeHttp_iff.1 looks
  refine looksLikeHttp_iff.2 ⟨?_, start, known, starts.trans (List.prefix_append _ _)⟩
  rw [List.length_append]
  omega

/-- An empty line ends at an index. -/
def EndsAt (data : List UInt8) (index : Nat) : Prop := crlf ++ crlf <+: data.drop index

theorem EndsAt.inside {index : Nat} (ends : EndsAt data index) : index + 4 ≤ data.length := by
  have long := List.IsPrefix.length_le ends
  rw [List.length_drop] at long
  change 4 ≤ _ at long
  omega

theorem findHeaderEnd_eq_some :
    findHeaderEnd data = some stop ↔ EndsAt data stop ∧ ∀ index < stop, ¬EndsAt data index := by
  unfold findHeaderEnd
  rw [List.find?_range_eq_some, List.isPrefixOf_iff_prefix, List.mem_range]
  have meets : ∀ index, (!(crlf ++ crlf).isPrefixOf (data.drop index)) = true ↔
      ¬EndsAt data index := by
    intro index
    rw [Bool.not_eq_true', ← Bool.not_eq_true, List.isPrefixOf_iff_prefix]
    rfl
  constructor
  · rintro ⟨ends, _, first⟩
    exact ⟨ends, fun index before => (meets index).mp (first index before)⟩
  · rintro ⟨ends, first⟩
    have inside := ends.inside
    exact ⟨ends, by omega, fun index before => (meets index).mpr (first index before)⟩

theorem endsAt_append {index : Nat} (inside : index + 4 ≤ front.length) :
    EndsAt (front ++ rest) index ↔ EndsAt front index := by
  unfold EndsAt
  rw [List.drop_append_of_le_length (by omega)]
  constructor
  · intro ends
    refine List.prefix_of_prefix_length_le ends (List.prefix_append _ _) ?_
    rw [List.length_drop]
    change 4 ≤ _
    omega
  · exact fun ends => ends.trans (List.prefix_append _ _)

/-- The first empty line of a prefix is the first one of the whole. -/
theorem findHeaderEnd_append :
    findHeaderEnd front = some stop ↔
      findHeaderEnd (front ++ rest) = some stop ∧ stop + 4 ≤ front.length := by
  rw [findHeaderEnd_eq_some, findHeaderEnd_eq_some]
  constructor
  · rintro ⟨ends, first⟩
    have inside := ends.inside
    refine ⟨⟨(endsAt_append inside).mpr ends, fun index before there => ?_⟩, inside⟩
    exact first index before ((endsAt_append (by omega)).mp there)
  · rintro ⟨⟨ends, first⟩, inside⟩
    refine ⟨(endsAt_append inside).mp ends, fun index before there => ?_⟩
    exact first index before ((endsAt_append (by omega)).mpr there)

/-- The message of a header, which is all that the parser reads. -/
def headerMessage (header : List UInt8) : HttpMessage :=
  let line := startLine header
  let blockOff := line.length + 2
  let headerBlock := if blockOff ≤ header.length then some (header.drop blockOff) else none
  if httpSlash.isPrefixOf line then
    let error := parseStatusLine line
    if error = .ok then ⟨false, [], [], headerBlock, header.length + 4, .ok⟩
    else .failed (header.length + 4) error
  else
    let (error, method, uri) := parseRequestLine line
    if error = .ok then ⟨true, method, uri, headerBlock, header.length + 4, .ok⟩
    else .failed (header.length + 4) error

theorem parseHttp_eq (looks : looksLikeHttp data = true)
    (ends : findHeaderEnd (data.take httpMaxHeader) = some stop) :
    parseHttp data = headerMessage (data.take stop) := by
  have inside := (findHeaderEnd_eq_some.1 ends).1.inside
  rw [List.length_take] at inside
  have header : (data.take httpMaxHeader).take stop = data.take stop := by
    rw [List.take_take, Nat.min_eq_left (by omega)]
  have length : (data.take stop).length = stop := by
    rw [List.length_take]
    omega
  have block : ∀ off, slice (data.take httpMaxHeader) off (stop - off) = (data.take stop).drop off := by
    intro off
    rw [slice, ← List.drop_take, header]
  unfold parseHttp headerMessage
  rw [if_neg (by simp [looks])]
  dsimp only
  rw [ends]
  dsimp only
  rw [header, length, block]

theorem parseHttp_incomplete (looks : looksLikeHttp data = true)
    (endless : findHeaderEnd (data.take httpMaxHeader) = none) :
    parseHttp data = .failed 0 .incomplete := by
  unfold parseHttp
  rw [if_neg (by simp [looks])]
  dsimp only
  rw [endless]

theorem headerMessage_consumed (header : List UInt8) :
    (headerMessage header).consumed = header.length + 4 := by
  unfold headerMessage
  dsimp only
  split
  · split <;> rfl
  · split <;> rfl

theorem headerMessage_error (header : List UInt8) :
    (headerMessage header).error = .ok ∨ (headerMessage header).error = .malformed ∨
      (headerMessage header).error = .uriTooLong := by
  have status : ∀ line, parseStatusLine line = .ok ∨ parseStatusLine line = .malformed := by
    intro line
    unfold parseStatusLine
    split
    · exact .inr rfl
    · split
      · exact .inr rfl
      · exact .inl rfl
  have request : ∀ line, (parseRequestLine line).1 = .ok ∨
      (parseRequestLine line).1 = .malformed ∨ (parseRequestLine line).1 = .uriTooLong := by
    intro line
    unfold parseRequestLine
    split
    · split
      · exact .inr (.inl rfl)
      · dsimp only
        split
        · exact .inr (.inl rfl)
        · split
          · exact .inr (.inr rfl)
          · exact .inl rfl
    · exact .inr (.inl rfl)
  unfold headerMessage
  dsimp only
  split
  · split
    · exact .inl rfl
    · rcases status (startLine header) with ok | malformed
      · exact .inl ok
      · exact .inr (.inl malformed)
  · split
    · exact .inl rfl
    · exact request (startLine header)

theorem parseHttp_consumed (looks : looksLikeHttp data = true)
    (ends : findHeaderEnd (data.take httpMaxHeader) = some stop) :
    (parseHttp data).consumed = stop + 4 := by
  have inside := (findHeaderEnd_eq_some.1 ends).1.inside
  rw [List.length_take] at inside
  rw [parseHttp_eq looks ends, headerMessage_consumed, List.length_take, Nat.min_eq_left]
  omega

/-- An error that comes from a header has found its end. -/
theorem findHeaderEnd_of_error (looks : looksLikeHttp data = true)
    (found : (parseHttp data).error ≠ .incomplete) :
    ∃ stop, findHeaderEnd (data.take httpMaxHeader) = some stop := by
  cases ends : findHeaderEnd (data.take httpMaxHeader) with
  | none =>
      rw [parseHttp_incomplete looks ends] at found
      exact absurd rfl found
  | some stop => exact ⟨stop, rfl⟩

theorem parseHttp_looks (known : (parseHttp data).error ≠ .notHttp) :
    looksLikeHttp data = true := by
  by_contra other
  rw [parseHttp, if_pos (Bool.not_eq_true _ ▸ other)] at known
  exact known rfl

/-- A header that ends in a prefix ends there in the whole. -/
theorem findHeaderEnd_whole (fits : front.length ≤ httpMaxHeader)
    (ends : findHeaderEnd front = some stop) :
    findHeaderEnd ((front ++ rest).take httpMaxHeader) = some stop := by
  rw [List.take_append, List.take_of_length_le fits]
  exact (findHeaderEnd_append.1 ends).1

theorem parseHttp_append (looks : looksLikeHttp front = true)
    (fits : front.length ≤ httpMaxHeader) (ends : findHeaderEnd front = some stop) :
    parseHttp (front ++ rest) = parseHttp front := by
  have inside := (findHeaderEnd_eq_some.1 ends).1.inside
  have own : findHeaderEnd (front.take httpMaxHeader) = some stop := by
    rw [List.take_of_length_le fits]
    exact ends
  rw [parseHttp_eq (looksLikeHttp_append looks) (findHeaderEnd_whole fits ends),
    parseHttp_eq looks own, List.take_append_of_le_length (by omega)]

/-- No start contains the CR that a header ends with. -/
theorem looksLikeHttp_take (looks : looksLikeHttp data = true) (ends : EndsAt data stop) :
    looksLikeHttp (data.take (stop + 4)) = true := by
  obtain ⟨_, start, known, starts⟩ := looksLikeHttp_iff.1 looks
  have inside := ends.inside
  refine looksLikeHttp_iff.2 ⟨by rw [List.length_take]; omega, start, known, ?_⟩
  refine List.prefix_of_prefix_length_le starts (List.take_prefix _ _) ?_
  by_contra long
  rw [List.length_take] at long
  have noCr : ∀ start ∈ httpStarts, 13 ∉ start := by decide
  have there : data[stop]? = some 13 := by
    obtain ⟨after, split⟩ := ends
    have first := congrArg List.head? split
    rw [List.head?_drop] at first
    exact first.symm
  obtain ⟨after, rfl⟩ := starts
  rw [List.getElem?_append_left (by omega)] at there
  exact noCr start known (List.mem_of_getElem? there)

end HttpParser

end Idsm.EthProbe
