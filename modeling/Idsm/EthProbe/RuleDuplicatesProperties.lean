import Idsm.EthProbe.HttpSegmentationProperties
import Idsm.EthProbe.RuleOccurrences
import Idsm.Foundation.Execution

/-! How often the rules alert for one occurrence in a TCP stream and for one packet. -/

set_option autoImplicit false

namespace Idsm.EthProbe

open Idsm.Foundation

section Chunk

variable {probe : Probe} {port : UInt16} {fed : Nat} {ds : DirState} {pp : ParsedPacket}
  {met : DirState × Chunk} {rule : Rule} {ends : List Nat} {offset : Nat}

/-- Before a delivery: no payload rule matches what is retained, and the packet meets no rule
that looks at headers only. -/
structure NothingAgain (probe : Probe) (pp : ParsedPacket) (ds : DirState) : Prop where
  payload : ∀ rule ∈ probe.rules.rules, rule.headerOnly = false →
    rule.matches pp (rawBuffer ds.ruleTail) = false
  header : ∀ rule ∈ probe.rules.rules, rule.headerOnly = true → rule.matchesHeader pp = false

instance : Decidable (NothingAgain probe pp ds) :=
  decidable_of_iff ((∀ rule ∈ probe.rules.rules, rule.headerOnly = false →
      rule.matches pp (rawBuffer ds.ruleTail) = false) ∧
    ∀ rule ∈ probe.rules.rules, rule.headerOnly = true → rule.matchesHeader pp = false)
    ⟨fun both => ⟨both.1, both.2⟩, fun again => ⟨again.payload, again.header⟩⟩

theorem NothingAgain.payloadRule (again : NothingAgain probe met.2.packet ds)
    {bufs : MatchBuffers} (hit : rule ∈ probe.rules.matched met.2.packet bufs) :
    rule.matchesHeader met.2.packet = true ∧ rule.headerOnly = false := by
  obtain ⟨loaded, hit⟩ := List.mem_filter.mp hit
  have header := (Bool.and_eq_true_iff.mp hit).1
  refine ⟨header, ?_⟩
  by_contra only
  rw [again.header rule loaded (by simpa using only)] at header
  cases header

/-- The ends of a rule's contents in the window, for one that matched there. -/
theorem mem_windowOccurrences {occurrence : Occurrence} :
    (rule, occurrence) ∈ probe.windowOccurrences fed met ↔
      rule ∈ probe.streamHits met.2.packet met.1 met.2.data ∧
      ∃ ends, rawEnds (met.1.ruleTail ++ met.2.data) rule.contents 0 = some ends ∧
        occurrence = .window (ends.map (fed - met.1.ruleTail.length + ·)) := by
  unfold Probe.windowOccurrences
  rw [List.mem_map]
  constructor
  · rintro ⟨hit, loaded, same⟩
    obtain ⟨rfl, rfl⟩ := Prod.mk.inj same
    refine ⟨loaded, ?_⟩
    have matched := (Bool.and_eq_true_iff.mp (List.mem_filter.mp loaded).2).2
    have found := (@contentsMatch_rawBuffer (met.1.ruleTail ++ met.2.data) hit.contents
      fun _ => 0).symm.trans matched
    obtain ⟨ends, ended⟩ := Option.isSome_iff_exists.mp found
    exact ⟨ends, ended, by rw [ended]; rfl⟩
  · rintro ⟨hit, ends, ended, rfl⟩
    exact ⟨rule, hit, by rw [ended]; rfl⟩

/-- A rule that does not match the tail ends in the new bytes. -/
theorem windowOccurrences_beyond (again : NothingAgain probe met.2.packet met.1)
    (tail : met.1.ruleTail.length ≤ fed)
    (alerts : (rule, .window ends) ∈ probe.windowOccurrences fed met) :
    (∃ stop ∈ ends, fed < stop) ∧ ∀ stop ∈ ends, stop ≤ fed + met.2.data.length := by
  obtain ⟨hit, found, ended, same⟩ := mem_windowOccurrences.1 alerts
  obtain rfl := Occurrence.window.inj same
  have bound := rawEnds_le ended
  rw [List.length_append] at bound
  constructor
  · by_contra early
    have inside : ∀ stop ∈ found, stop ≤ met.1.ruleTail.length := by
      intro stop member
      by_contra late
      exact early ⟨_, List.mem_map_of_mem member, by omega⟩
    have before := rawEnds_take (by rw [List.length_append]; omega) ended inside
    rw [List.take_left] at before
    obtain ⟨header, payload⟩ := again.payloadRule hit
    have silent := again.payload rule (List.mem_filter.mp hit).1 payload
    rw [Rule.matches, header, Bool.true_and, contentsMatch_rawBuffer, before] at silent
    cases silent
  · intro stop member
    obtain ⟨inner, there, rfl⟩ := List.mem_map.mp member
    have := bound inner there
    omega

/-- Each loaded rule alerts at most once in one evaluation. -/
theorem count_evaluation {rules hits : List Rule} (loaded : hits.Sublist rules)
    (stamp : Rule → Occurrence) {occurrence : Occurrence} :
    (hits.map fun rule => (rule, stamp rule)).count (rule, occurrence) ≤ rules.count rule := by
  refine Nat.le_trans ?_ (loaded.count_le rule)
  rw [List.count, List.countP_map, List.count]
  refine List.countP_mono_left fun other _ same => ?_
  have pair := beq_iff_eq.mp same
  exact beq_iff_eq.mpr (Prod.mk.inj pair).1

end Chunk

section Messages

variable {probe : Probe} {port : UInt16} {ds : DirState} {pp : ParsedPacket}
  {data acc : List UInt8} {messages : List HttpMessage} {rule : Rule}

def consumedBy (messages : List HttpMessage) : Nat := (messages.map HttpMessage.consumed).sum

theorem parseHttp_inside (ok : (parseHttp data).error = .ok) :
    0 < (parseHttp data).consumed ∧ (parseHttp data).consumed ≤ data.length := by
  have looks := @parseHttp_looks data (by rw [ok]; exact nofun)
  obtain ⟨stop, ends⟩ := findHeaderEnd_of_error looks (by rw [ok]; exact nofun)
  have inside := (findHeaderEnd_eq_some.1 ends).1.inside
  rw [List.length_take] at inside
  rw [parseHttp_consumed looks ends]
  omega

/-- The messages and the rest are bytes of their own. -/
theorem parseMessages_accounts {fuel : Nat} :
    consumedBy (parseMessages fuel acc).messages + (parseMessages fuel acc).rest.length ≤
        acc.length ∧
      ∀ msg ∈ (parseMessages fuel acc).messages, 0 < msg.consumed := by
  induction fuel generalizing acc with
  | zero => exact ⟨Nat.le_of_eq (Nat.zero_add _), nofun⟩
  | succ fuel ih =>
      by_cases filled : acc = []
      · rw [filled, parseMessages_nil]
        exact ⟨Nat.le_refl _, nofun⟩
      · by_cases fits : acc.length ≤ httpMaxHeader
        · cases error : (parseHttp acc).error with
          | ok =>
              obtain ⟨positive, inside⟩ := parseHttp_inside error
              obtain ⟨accounts, others⟩ := @ih (acc.drop (parseHttp acc).consumed)
              rw [parseMessages_ok fits filled error]
              rw [List.length_drop] at accounts
              constructor
              · have both : (parseHttp acc).consumed +
                    consumedBy (parseMessages fuel (acc.drop (parseHttp acc).consumed)).messages +
                    (parseMessages fuel (acc.drop (parseHttp acc).consumed)).rest.length ≤
                    acc.length := by omega
                exact both
              · intro msg member
                rcases List.mem_cons.mp member with rfl | behind
                · exact positive
                · exact others msg behind
          | incomplete =>
              rw [parseMessages_waits fits filled error]
              exact ⟨Nat.le_of_eq (Nat.zero_add _), nofun⟩
          | notHttp | malformed | uriTooLong =>
              rw [parseMessages_failed fits filled (by rw [error]; exact nofun)
                (by rw [error]; exact nofun)]
              exact ⟨Nat.zero_le _, nofun⟩
        · rw [parseMessages_over (Nat.lt_of_not_le fits)]
          exact ⟨Nat.zero_le _, nofun⟩

theorem frameDoip_rest {fuel : Nat} : (frameDoip fuel acc).rest.length ≤ acc.length := by
  induction fuel generalizing acc with
  | zero => exact Nat.le_refl _
  | succ fuel ih =>
      unfold frameDoip
      dsimp only
      split
      · exact Nat.le_refl _
      · split
        · exact Nat.zero_le _
        · split
          · exact Nat.le_refl _
          · refine ih.trans ?_
            rw [List.length_drop]
            omega

theorem feedApp_accounts :
    consumedBy (probe.messagesOf port ds data) + (probe.feedApp pp port ds data).1.acc.length ≤
        ds.acc.length + data.length ∧
      ∀ msg ∈ probe.messagesOf port ds data, 0 < msg.consumed := by
  have whole : (ds.acc ++ data).length = ds.acc.length + data.length := List.length_append
  unfold Probe.messagesOf Probe.feedApp
  by_cases doip : port = doipPort
  · have framed := @frameDoip_rest (ds.acc ++ data) (ds.acc ++ data).length
    rw [if_pos (.inl doip), if_pos doip]
    refine ⟨?_, nofun⟩
    change 0 + (frameDoip _ _).rest.length ≤ _
    omega
  · rw [if_neg doip]
    by_cases tls : port = probe.tlsPort
    · rw [if_pos (.inr (.inl tls)), if_pos tls]
      refine ⟨?_, nofun⟩
      change 0 + _ ≤ _
      unfold Probe.feedTlsStream
      split
      · dsimp only
        omega
      · dsimp only
        split
        · dsimp only
          omega
        · split
          · dsimp only
            omega
          · dsimp only
            omega
    · rw [if_neg tls]
      by_cases http : port = probe.httpPort ∨ port = probe.httpAltPort
      · rw [if_pos http]
        unfold Probe.feedHttpStream
        by_cases bad : ds.httpBad = true
        · rw [if_pos (.inr (.inr (.inr (.inl bad)))), if_pos bad]
          exact ⟨by change 0 + ds.acc.length ≤ _; omega, nofun⟩
        · rw [if_neg bad]
          dsimp only
          by_cases sniff : ds.httpChecked = false ∧ looksLikeHttp (ds.acc ++ data) = false
          · rw [if_pos (.inr (.inr (.inr (.inr sniff)))), if_pos sniff]
            refine ⟨?_, nofun⟩
            change 0 + (ds.acc ++ data).length ≤ _
            omega
          · have accounts := @parseMessages_accounts (ds.acc ++ data) (ds.acc ++ data).length
            rw [if_neg sniff, if_neg (by simp [doip, tls, http, bad, sniff])]
            exact ⟨accounts.1.trans (Nat.le_of_eq whole), accounts.2⟩
      · rw [if_neg http, if_pos (.inr (.inr (.inl http)))]
        exact ⟨by change 0 + ds.acc.length ≤ _; omega, nofun⟩

/-- The messages of a chunk and what stays accumulated are bytes of their own. -/
theorem handleStreamData_accounts :
    consumedBy (probe.messagesOf port ds data) +
        (probe.handleStreamData pp port ds data).1.acc.length ≤ ds.acc.length + data.length ∧
      ∀ msg ∈ probe.messagesOf port ds data, 0 < msg.consumed := by
  have fed := @feedApp_accounts probe port
    { ds with ruleTail := probe.keepTail (ds.ruleTail ++ data) } pp data
  refine ⟨Nat.le_trans (Nat.add_le_add_left ?_ _) fed.1, fed.2⟩
  unfold Probe.handleStreamData
  dsimp only
  rw [capAcc_acc, length_rtake]
  exact Nat.min_le_left _ _

theorem mem_messageOffsets {start offset : Nat} {msg : HttpMessage}
    (there : (offset, msg) ∈ messageOffsets start messages) :
    msg ∈ messages ∧ start ≤ offset ∧ offset + msg.consumed ≤ start + consumedBy messages := by
  induction messages generalizing start with
  | nil => exact nomatch there
  | cons first later ih =>
      have sum : consumedBy (first :: later) = first.consumed + consumedBy later := List.sum_cons
      rcases List.mem_cons.mp there with same | behind
      · obtain ⟨rfl, rfl⟩ := Prod.mk.inj same
        exact ⟨List.mem_cons_self, Nat.le_refl _, by omega⟩
      · obtain ⟨member, after, before⟩ := ih behind
        exact ⟨List.mem_cons_of_mem _ member, by omega, by omega⟩

/-- Messages start at different places. -/
theorem count_messages {start offset : Nat} (engine : RuleEngine)
    (positive : ∀ msg ∈ messages, 0 < msg.consumed) :
    ((messageOffsets start messages).flatMap fun message =>
      (engine.matched pp message.2.buffers).map fun rule =>
        (rule, Occurrence.message message.1)).count (rule, .message offset) ≤
      engine.rules.count rule := by
  induction messages generalizing start with
  | nil => exact Nat.zero_le _
  | cons first later ih =>
      rw [messageOffsets, List.flatMap_cons, List.count_append]
      by_cases here : offset = start
      · have elsewhere : (rule, Occurrence.message offset) ∉
            (messageOffsets (start + first.consumed) later).flatMap fun message =>
              (engine.matched pp message.2.buffers).map fun rule =>
                (rule, Occurrence.message message.1) := by
          intro member
          obtain ⟨⟨other, msg⟩, there, hit⟩ := List.mem_flatMap.mp member
          obtain ⟨_, _, same⟩ := List.mem_map.mp hit
          obtain rfl := Occurrence.message.inj (Prod.mk.inj same).2
          have := (mem_messageOffsets there).2.1
          have := positive first List.mem_cons_self
          omega
        rw [List.count_eq_zero_of_not_mem elsewhere]
        exact count_evaluation List.filter_sublist (fun _ => .message start)
      · have none : (rule, Occurrence.message offset) ∉
            (engine.matched pp first.buffers).map fun rule => (rule, Occurrence.message start) := by
          intro member
          obtain ⟨_, _, same⟩ := List.mem_map.mp member
          exact here (Occurrence.message.inj (Prod.mk.inj same).2).symm
        rw [List.count_eq_zero_of_not_mem none, Nat.zero_add]
        exact ih fun msg member => positive msg (List.mem_cons_of_mem _ member)

end Messages

section Directions

variable {probe : Probe} {port : UInt16} {fed basis : Nat} {ds : DirState} {chunks : List Chunk}
  {rule : Rule} {occurrence : Occurrence}

/-- The occurrence ends behind `fed` bytes, or is a message behind `basis` bytes. -/
def Occurrence.Beyond (fed basis : Nat) : Occurrence → Prop
  | .window ends => ∃ stop ∈ ends, fed < stop
  | .message offset => basis ≤ offset

def Occurrence.Within (fed basis : Nat) : Occurrence → Prop
  | .window ends => ∀ stop ∈ ends, stop ≤ fed
  | .message offset => offset < basis

theorem Occurrence.Within.not_beyond (within : occurrence.Within fed basis) :
    ¬occurrence.Beyond fed basis := by
  cases occurrence with
  | window ends =>
      rintro ⟨stop, member, late⟩
      exact absurd (within stop member) (Nat.not_le.mpr late)
  | message offset => exact Nat.not_le.mpr within

theorem Occurrence.Beyond.earlier {fed' basis' : Nat} (beyond : occurrence.Beyond fed basis)
    (less : fed' ≤ fed) (lower : basis' ≤ basis) : occurrence.Beyond fed' basis' := by
  cases occurrence with
  | window ends =>
      obtain ⟨stop, member, late⟩ := beyond
      exact ⟨stop, member, Nat.lt_of_le_of_lt less late⟩
  | message offset => exact Nat.le_trans lower beyond

/-- What a direction keeps of the bytes it was fed. -/
structure Kept (fed : Nat) (ds : DirState) : Prop where
  tail : ds.ruleTail.length ≤ fed
  acc : ds.acc.length ≤ fed

theorem kept_fresh : Kept 0 .fresh := ⟨Nat.le_refl _, Nat.le_refl _⟩

/-- The first byte that a message of the next chunks can start with. -/
def nextMessage (fed : Nat) (ds : DirState) : Nat := fed - ds.acc.length

theorem Kept.step (kept : Kept fed ds) (chunk : Chunk) :
    Kept (fed + chunk.data.length)
        (probe.handleStreamData chunk.packet port ds chunk.data).1 ∧
      nextMessage fed ds + consumedBy (probe.messagesOf port ds chunk.data) ≤
        nextMessage (fed + chunk.data.length)
          (probe.handleStreamData chunk.packet port ds chunk.data).1 := by
  have accounts := (@handleStreamData_accounts probe port ds chunk.packet chunk.data).1
  obtain ⟨tail, acc⟩ := kept
  refine ⟨⟨?_, by omega⟩, by unfold nextMessage; omega⟩
  rw [handleStreamData_ruleTail, length_rtake, List.length_append]
  omega

theorem chunkOccurrences_beyond {chunk : Chunk} (kept : Kept fed ds)
    (again : NothingAgain probe chunk.packet ds)
    (alerts : (rule, occurrence) ∈ probe.chunkOccurrences port fed (ds, chunk)) :
    occurrence.Beyond fed (nextMessage fed ds) ∧
      occurrence.Within (fed + chunk.data.length) (nextMessage (fed + chunk.data.length)
        (probe.handleStreamData chunk.packet port ds chunk.data).1) := by
  rcases List.mem_append.mp alerts with window | message
  · obtain ⟨_, ends, _, rfl⟩ := mem_windowOccurrences.1 window
    exact windowOccurrences_beyond again kept.tail window
  · obtain ⟨⟨offset, msg⟩, there, hit⟩ := List.mem_flatMap.mp message
    obtain ⟨_, _, same⟩ := List.mem_map.mp hit
    obtain rfl := (Prod.mk.inj same).2
    obtain ⟨member, after, before⟩ := mem_messageOffsets there
    have positive := (@handleStreamData_accounts probe port ds chunk.packet chunk.data).2 msg member
    have later := (@Kept.step probe port fed ds kept chunk).2
    refine ⟨after, ?_⟩
    change offset < _
    unfold nextMessage at later ⊢
    dsimp only at before
    omega

/-- In one chunk. -/
theorem count_chunkOccurrences {chunk : Chunk} :
    (probe.chunkOccurrences port fed (ds, chunk)).count (rule, occurrence) ≤
      probe.rules.rules.count rule := by
  unfold Probe.chunkOccurrences
  rw [List.count_append]
  cases occurrence with
  | window ends =>
      have none : (rule, Occurrence.window ends) ∉ probe.messageOccurrences port fed (ds, chunk) := by
        intro member
        obtain ⟨_, _, hit⟩ := List.mem_flatMap.mp member
        obtain ⟨_, _, same⟩ := List.mem_map.mp hit
        cases (Prod.mk.inj same).2
      rw [List.count_eq_zero_of_not_mem none]
      exact count_evaluation List.filter_sublist _
  | message offset =>
      have none : (rule, Occurrence.message offset) ∉ probe.windowOccurrences fed (ds, chunk) := by
        intro member
        obtain ⟨_, _, _, same⟩ := mem_windowOccurrences.1 member
        cases same
      rw [List.count_eq_zero_of_not_mem none, Nat.zero_add]
      exact count_messages _
        (@handleStreamData_accounts probe port ds chunk.packet chunk.data).2

theorem directionOccurrences_beyond (kept : Kept fed ds)
    (again : ∀ met ∈ probe.chunkStates port ds chunks, NothingAgain probe met.2.packet met.1)
    (alerts : (rule, occurrence) ∈ probe.directionOccurrences port fed ds chunks) :
    occurrence.Beyond fed (nextMessage fed ds) := by
  induction chunks generalizing fed ds with
  | nil => exact nomatch alerts
  | cons chunk later ih =>
      rcases List.mem_append.mp alerts with here | behind
      · exact (chunkOccurrences_beyond kept (again _ List.mem_cons_self) here).1
      · obtain ⟨next, onward⟩ := @Kept.step probe port fed ds kept chunk
        have beyond := ih next (fun met member => again met (List.mem_cons_of_mem _ member)) behind
        exact beyond.earlier (Nat.le_add_right _ _) (Nat.le_trans (Nat.le_add_right _ _) onward)

/-- Over a whole direction each loaded rule alerts at most once for an occurrence. -/
theorem count_directionOccurrences (kept : Kept fed ds)
    (again : ∀ met ∈ probe.chunkStates port ds chunks, NothingAgain probe met.2.packet met.1) :
    (probe.directionOccurrences port fed ds chunks).count (rule, occurrence) ≤
      probe.rules.rules.count rule := by
  induction chunks generalizing fed ds with
  | nil => exact Nat.zero_le _
  | cons chunk later ih =>
      have others := fun met member => again met (List.mem_cons_of_mem (ds, chunk) member)
      have next := (@Kept.step probe port fed ds kept chunk).1
      rw [Probe.directionOccurrences, List.count_append]
      by_cases here : (rule, occurrence) ∈ probe.chunkOccurrences port fed (ds, chunk)
      · have within := (chunkOccurrences_beyond kept (again _ List.mem_cons_self) here).2
        have elsewhere : (rule, occurrence) ∉ probe.directionOccurrences port
            (fed + chunk.data.length)
            (probe.handleStreamData chunk.packet port ds chunk.data).1 later :=
          fun behind => within.not_beyond (directionOccurrences_beyond next others behind)
        rw [List.count_eq_zero_of_not_mem elsewhere]
        exact count_chunkOccurrences
      · rw [List.count_eq_zero_of_not_mem here, Nat.zero_add]
        exact ih next others

end Directions

section Alerts

variable {probe : Probe} {port : UInt16} {ds : DirState} {pp : ParsedPacket} {data : List UInt8}

def ProbeAlert.isRuleHit (alert : ProbeAlert) : Bool := alert.detectorType == .ruleHit

theorem filter_ruleHits (rules : List Rule) :
    (rules.map fun rule => makeAlert .ruleHit pp rule.sid).filter ProbeAlert.isRuleHit =
      rules.map fun rule => makeAlert .ruleHit pp rule.sid := by
  refine List.filter_eq_self.mpr fun alert member => ?_
  obtain ⟨rule, _, rfl⟩ := List.mem_map.mp member
  rfl

theorem filter_httpAlerts (parsed : HttpParsed) :
    (probe.httpAlerts pp parsed).filter ProbeAlert.isRuleHit =
      parsed.messages.flatMap fun msg => probe.ruleAlerts pp msg.buffers := by
  unfold Probe.httpAlerts
  rw [List.filter_append, List.filter_flatMap]
  have none : ((parsed.failure.map (makeAlert .http pp)).toList).filter ProbeAlert.isRuleHit =
      [] := by
    cases parsed.failure <;> rfl
  rw [none, List.append_nil]
  congr 1
  funext msg
  exact filter_ruleHits _

theorem filter_tlsAlerts (hello : TlsClientHello) :
    (probe.tlsAlerts pp hello).filter ProbeAlert.isRuleHit = [] := by
  unfold Probe.tlsAlerts
  split
  · rfl
  · rw [List.filter_append]
    split <;> split <;> rfl

theorem filter_doipAlerts (framed : DoipFramed) :
    (framed.messages.filterMap (inspectDoipMessage pp) ++
      if framed.implausible then [makeAlert .doip pp DoipError.length.code] else []).filter
        ProbeAlert.isRuleHit = [] := by
  rw [List.filter_append]
  have inspected : (framed.messages.filterMap (inspectDoipMessage pp)).filter
      ProbeAlert.isRuleHit = [] := by
    refine List.filter_eq_nil_iff.mpr fun alert member => ?_
    obtain ⟨message, _, raised⟩ := List.mem_filterMap.mp member
    obtain ⟨code, _, rfl⟩ := Option.map_eq_some_iff.mp raised
    exact Bool.false_ne_true
  rw [inspected]
  split <;> rfl

/-- Of what the application parsers raise, the rule hits are those of the messages. -/
theorem feedApp_ruleHits :
    (probe.feedApp pp port ds data).2.filter ProbeAlert.isRuleHit =
      (probe.messagesOf port ds data).flatMap fun msg => probe.ruleAlerts pp msg.buffers := by
  unfold Probe.feedApp Probe.messagesOf
  by_cases doip : port = doipPort
  · rw [if_pos doip, if_pos (.inl doip)]
    exact filter_doipAlerts _
  · rw [if_neg doip]
    by_cases tls : port = probe.tlsPort
    · rw [if_pos tls, if_pos (.inr (.inl tls))]
      unfold Probe.feedTlsStream
      split
      · rfl
      · dsimp only
        split
        · rfl
        · split
          · rfl
          · exact filter_tlsAlerts _
    · rw [if_neg tls]
      by_cases http : port = probe.httpPort ∨ port = probe.httpAltPort
      · rw [if_pos http]
        unfold Probe.feedHttpStream
        by_cases bad : ds.httpBad = true
        · rw [if_pos bad, if_pos (.inr (.inr (.inr (.inl bad))))]
          rfl
        · rw [if_neg bad]
          dsimp only
          by_cases sniff : ds.httpChecked = false ∧ looksLikeHttp (ds.acc ++ data) = false
          · rw [if_pos sniff, if_pos (.inr (.inr (.inr (.inr sniff))))]
            rfl
          · rw [if_neg sniff, if_neg (by simp [doip, tls, http, bad, sniff])]
            exact filter_httpAlerts _
      · rw [if_neg http, if_pos (.inr (.inr (.inl http)))]
        rfl

theorem messageOffsets_snd {start : Nat} {messages : List HttpMessage} :
    (messageOffsets start messages).map Prod.snd = messages := by
  induction messages generalizing start with
  | nil => rfl
  | cons msg later ih => rw [messageOffsets, List.map_cons, ih]

/-- The rules of the occurrences are the rule hits that the chunk raises. -/
theorem handleStreamData_ruleHits {fed : Nat} :
    (probe.handleStreamData pp port ds data).2.filter ProbeAlert.isRuleHit =
      (probe.chunkOccurrences port fed (ds, ⟨pp, data⟩)).map fun hit =>
        makeAlert .ruleHit pp hit.1.sid := by
  unfold Probe.handleStreamData
  dsimp only
  rw [List.filter_append, filter_ruleHits, feedApp_ruleHits]
  unfold Probe.chunkOccurrences
  rw [List.map_append]
  congr 1
  · unfold Probe.windowOccurrences
    rw [List.map_map]
    rfl
  · unfold Probe.messageOccurrences
    rw [List.map_flatMap]
    conv_lhs => rw [← @messageOffsets_snd (fed - ds.acc.length) (probe.messagesOf port _ data)]
    rw [List.flatMap_map]
    refine congrArg (List.flatMap · _) (funext fun message => ?_)
    rw [List.map_map]
    rfl

end Alerts

section Runs

variable {probe : Probe} {state last : TcpState} {arrival : ParsedPacket × UInt64}
  {key : FlowKey} {reverse : Bool} {port : UInt16} {ds : DirState} {chunks : List Chunk}

/-- The bytes that a packet delivers, and to which direction of which flow. -/
def Probe.delivery (probe : Probe) (state : TcpState) (arrival : ParsedPacket × UInt64) :
    Option (FlowKey × Bool × Chunk) :=
  let res := (addSegment probe.tcp state.tcp arrival.1 arrival.2).2
  if res.hasData ∧ res.data ≠ [] then some (res.flow, res.reverse, ⟨arrival.1, res.data⟩) else none

def Probe.closes (probe : Probe) (state : TcpState) (arrival : ParsedPacket × UInt64)
    (key : FlowKey) : Bool :=
  let res := (addSegment probe.tcp state.tcp arrival.1 arrival.2).2
  res.closed && res.flow == key

def Probe.tcpStep (probe : Probe) (state : TcpState) (arrival : ParsedPacket × UInt64) :
    Option TcpState :=
  some (probe.handleTcp state arrival.1 arrival.2).1

def TcpState.initial : TcpState := ⟨.empty, fun _ _ => .fresh⟩

/-- Every rule that alerts for a packet. -/
def Probe.packetHits (probe : Probe) (state : TcpState) (arrival : ParsedPacket × UInt64) :
    List Rule :=
  probe.headerHits arrival.1 ++
    match probe.delivery state arrival with
    | none => []
    | some (key, reverse, chunk) =>
        (probe.chunkOccurrences (key.port reverse) 0 (state.flows key reverse, chunk)).map Prod.fst

theorem handleTcp_ruleHits :
    (probe.handleTcp state arrival.1 arrival.2).2.filter ProbeAlert.isRuleHit =
      (probe.packetHits state arrival).map fun rule => makeAlert .ruleHit arrival.1 rule.sid := by
  unfold Probe.handleTcp Probe.packetHits Probe.delivery
  dsimp only
  rw [List.filter_append, filter_ruleHits, List.map_append]
  congr 1
  split
  · rw [handleStreamData_ruleHits, List.map_map]
    rfl
  · rfl

/-- What a direction has been fed since its flow was closed last. -/
def Probe.feeds (probe : Probe) (key : FlowKey) (reverse : Bool) (chunks : List Chunk)
    (transition : Transition TcpState (ParsedPacket × UInt64)) : List Chunk :=
  if probe.closes transition.before transition.event key then []
  else
    match probe.delivery transition.before transition.event with
    | none => chunks
    | some (flow, side, chunk) =>
        if key = flow ∧ reverse = side then chunks ++ [chunk] else chunks

def Probe.streamChunks (probe : Probe) (key : FlowKey) (reverse : Bool)
    (past : List (Transition TcpState (ParsedPacket × UInt64))) : List Chunk :=
  past.foldl (probe.feeds key reverse) []

def Probe.afterChunks (probe : Probe) (port : UInt16) (ds : DirState) (chunks : List Chunk) :
    DirState :=
  chunks.foldl (fun ds chunk => (probe.handleStreamData chunk.packet port ds chunk.data).1) ds

theorem chunkStates_concat {chunk : Chunk} :
    probe.chunkStates port ds (chunks ++ [chunk]) =
      probe.chunkStates port ds chunks ++ [(probe.afterChunks port ds chunks, chunk)] := by
  induction chunks generalizing ds with
  | nil => rfl
  | cons first later ih =>
      rw [List.cons_append, Probe.chunkStates, ih]
      rfl

theorem afterChunks_concat {chunk : Chunk} :
    probe.afterChunks port ds (chunks ++ [chunk]) =
      (probe.handleStreamData chunk.packet port (probe.afterChunks port ds chunks)
        chunk.data).1 := by
  unfold Probe.afterChunks
  rw [List.foldl_append]
  rfl

theorem handleTcp_flows :
    (probe.handleTcp state arrival.1 arrival.2).1.flows key reverse =
      if probe.closes state arrival key then .fresh
      else
        match probe.delivery state arrival with
        | none => state.flows key reverse
        | some (flow, side, chunk) =>
            if key = flow ∧ reverse = side then
              (probe.handleStreamData chunk.packet (flow.port side) (state.flows flow side)
                chunk.data).1
            else state.flows key reverse := by
  unfold Probe.handleTcp Probe.closes Probe.delivery
  obtain ⟨tcp, hasData, data, side, flow, closed, _⟩ :=
    addSegment probe.tcp state.tcp arrival.1 arrival.2
  dsimp only
  cases closed with
  | false =>
      rw [if_neg Bool.false_ne_true, Bool.false_and, if_neg Bool.false_ne_true]
      split <;> rfl
  | true =>
      rw [if_pos rfl, Bool.true_and]
      unfold TcpState.eraseFlow
      dsimp only
      by_cases same : key = flow
      · rw [if_pos same, if_pos (beq_iff_eq.mpr same.symm)]
      · rw [if_neg same, if_neg fun equal => same (beq_iff_eq.mp equal).symm]
        split <;> rfl

/-- Before a packet: what it delivers finds nothing again. -/
def NothingAgainTcp (probe : Probe) (state : TcpState) (arrival : ParsedPacket × UInt64) : Prop :=
  ∀ key reverse chunk, probe.delivery state arrival = some (key, reverse, chunk) →
    NothingAgain probe chunk.packet (state.flows key reverse)

instance : Decidable (NothingAgainTcp probe state arrival) :=
  match delivers : probe.delivery state arrival with
  | none => .isTrue fun _ _ _ given => nomatch delivers.symm.trans given
  | some (key, reverse, chunk) =>
      decidable_of_iff (NothingAgain probe chunk.packet (state.flows key reverse)) <| by
        unfold NothingAgainTcp
        rw [delivers]
        constructor
        · intro again _ _ _ same
          cases same
          exact again
        · exact fun all => all key reverse chunk rfl

/-- For each occurrence in a stream, and for each packet that meets a rule without payload
options, a loaded rule alerts once. -/
structure AlertsOnce (probe : Probe) (past : List (Transition TcpState (ParsedPacket × UInt64)))
    (transition : Transition TcpState (ParsedPacket × UInt64)) : Prop where
  payload : ∀ key reverse chunk,
    probe.delivery transition.before transition.event = some (key, reverse, chunk) →
    ∀ rule : Rule, rule.headerOnly = false → ∀ occurrence,
      (probe.directionOccurrences (key.port reverse) 0 .fresh
        (probe.streamChunks key reverse past ++ [chunk])).count (rule, occurrence) ≤
        probe.rules.rules.count rule
  header : ∀ rule : Rule, rule.headerOnly = true →
    (probe.packetHits transition.before transition.event).count rule ≤ probe.rules.rules.count rule

/-- Each direction is what its chunks made of it, and none of them found anything again. -/
structure Followed (probe : Probe) (past : List (Transition TcpState (ParsedPacket × UInt64)))
    (state : TcpState) : Prop where
  flows : ∀ key reverse, state.flows key reverse =
    probe.afterChunks (key.port reverse) .fresh (probe.streamChunks key reverse past)
  again : ∀ key reverse, ∀ met ∈ probe.chunkStates (key.port reverse) .fresh
    (probe.streamChunks key reverse past), NothingAgain probe met.2.packet met.1

theorem nothingMet (port : UInt16) (ds : DirState) :
    ∀ met ∈ probe.chunkStates port ds [], NothingAgain probe met.2.packet met.1 := by
  intro met none
  rw [Probe.chunkStates] at none
  exact absurd none List.not_mem_nil

theorem Followed.delivers {past : List (Transition TcpState (ParsedPacket × UInt64))}
    (followed : Followed probe past state) (careful : NothingAgainTcp probe state arrival)
    {chunk : Chunk} (delivers : probe.delivery state arrival = some (key, reverse, chunk)) :
    ∀ met ∈ probe.chunkStates (key.port reverse) .fresh
      (probe.streamChunks key reverse past ++ [chunk]), NothingAgain probe met.2.packet met.1 := by
  intro met member
  rw [chunkStates_concat] at member
  rcases List.mem_append.mp member with before | newest
  · exact followed.again key reverse met before
  · obtain rfl := List.mem_singleton.mp newest
    rw [← followed.flows key reverse]
    exact careful key reverse chunk delivers

theorem Followed.step {past : List (Transition TcpState (ParsedPacket × UInt64))}
    {later : TcpState} (followed : Followed probe past state)
    (careful : NothingAgainTcp probe state arrival) (here : probe.tcpStep state arrival = some later) :
    Followed probe (past ++ [⟨state, arrival, later⟩]) later := by
  have handled : (probe.handleTcp state arrival.1 arrival.2).1 = later := Option.some.inj here
  have fed : ∀ key reverse, probe.streamChunks key reverse (past ++ [⟨state, arrival, later⟩]) =
      probe.feeds key reverse (probe.streamChunks key reverse past) ⟨state, arrival, later⟩ := by
    intro key reverse
    unfold Probe.streamChunks
    rw [List.foldl_append, List.foldl_cons, List.foldl_nil]
  constructor
  · intro key reverse
    rw [fed, ← handled, handleTcp_flows]
    unfold Probe.feeds
    dsimp only
    split
    · rfl
    · cases delivers : probe.delivery state arrival with
      | none => exact followed.flows key reverse
      | some delivery =>
          obtain ⟨flow, side, chunk⟩ := delivery
          dsimp only
          split
          next same =>
            obtain ⟨rfl, rfl⟩ := same
            rw [afterChunks_concat, ← followed.flows]
          next => exact followed.flows key reverse
  · intro key reverse
    rw [fed]
    unfold Probe.feeds
    dsimp only
    split
    · exact nothingMet _ _
    · cases delivers : probe.delivery state arrival with
      | none => exact followed.again key reverse
      | some delivery =>
          obtain ⟨flow, side, chunk⟩ := delivery
          dsimp only
          split
          next same =>
            obtain ⟨rfl, rfl⟩ := same
            exact followed.delivers careful delivers
          next => exact followed.again key reverse

theorem followed_initial : Followed probe [] .initial :=
  ⟨fun _ _ => rfl, fun _ _ => nothingMet _ _⟩

/-- A rule without payload options alerts at the packet only. -/
theorem count_packetHits {rule : Rule} (careful : NothingAgainTcp probe state arrival)
    (only : rule.headerOnly = true) :
    (probe.packetHits state arrival).count rule ≤ probe.rules.rules.count rule := by
  unfold Probe.packetHits
  have header : (probe.headerHits arrival.1).count rule ≤ probe.rules.rules.count rule :=
    (List.filter_sublist.trans List.filter_sublist).count_le rule
  cases delivers : probe.delivery state arrival with
  | none => rwa [List.append_nil]
  | some delivery =>
      obtain ⟨key, reverse, chunk⟩ := delivery
      have again := careful key reverse chunk delivers
      rw [List.count_append]
      have elsewhere : rule ∉ (probe.chunkOccurrences (key.port reverse) 0
          (state.flows key reverse, chunk)).map Prod.fst := ?_
      · rw [List.count_eq_zero_of_not_mem elsewhere]
        exact header
      intro member
      obtain ⟨⟨hit, occurrence⟩, there, rfl⟩ := List.mem_map.mp member
      have payload : hit.headerOnly = false := by
        rcases List.mem_append.mp there with window | message
        · have matched := (mem_windowOccurrences.1 window).1
          exact (@NothingAgain.payloadRule probe _ (state.flows key reverse, chunk) _ again _
            matched).2
        · obtain ⟨_, _, stamped⟩ := List.mem_flatMap.mp message
          obtain ⟨_, matched, same⟩ := List.mem_map.mp stamped
          obtain ⟨rfl, _⟩ := Prod.mk.inj same
          exact (@NothingAgain.payloadRule probe _ (state.flows key reverse, chunk) _ again _
            matched).2
      exact Bool.false_ne_true (payload.symm.trans only)

/-- A packet that delivers bytes and meets such a rule makes it alert again. -/
theorem count_packetHits_again {rule : Rule} {chunk : Chunk} (loaded : rule ∈ probe.rules.rules)
    (only : rule.headerOnly = true) (meets : rule.matchesHeader arrival.1 = true)
    (delivers : probe.delivery state arrival = some (key, reverse, chunk)) :
    probe.rules.rules.count rule < (probe.packetHits state arrival).count rule := by
  have positive := List.count_pos_iff.mpr loaded
  have contents : rule.contents = [] := List.isEmpty_iff.mp (Bool.and_eq_true_iff.mp only).1
  have matched : ∀ bufs, rule.matches arrival.1 bufs = true := by
    intro bufs
    rw [Rule.matches, meets, contents]
    rfl
  have all : ∀ bufs, (probe.rules.matched arrival.1 bufs).count rule =
      probe.rules.rules.count rule := fun bufs => List.count_filter (matched bufs)
  have packet : chunk.packet = arrival.1 := by
    unfold Probe.delivery at delivers
    dsimp only at delivers
    split at delivers
    · cases delivers
      rfl
    · cases delivers
  have header : (probe.headerHits arrival.1).count rule = probe.rules.rules.count rule := by
    unfold Probe.headerHits
    rw [List.count_filter only, all]
  have window : (probe.streamHits chunk.packet (state.flows key reverse) chunk.data).count rule =
      probe.rules.rules.count rule := by
    unfold Probe.streamHits
    rw [packet, all]
  have hits : (probe.windowOccurrences 0 (state.flows key reverse, chunk)).map Prod.fst =
      probe.streamHits chunk.packet (state.flows key reverse) chunk.data := by
    unfold Probe.windowOccurrences
    rw [List.map_map]
    exact List.map_id _
  unfold Probe.packetHits
  rw [delivers, List.count_append, header]
  dsimp only
  rw [Probe.chunkOccurrences, List.map_append, List.count_append, hits, window]
  omega

/-- In every run in which no packet delivers bytes to a direction whose tail a payload rule
matches already, or meets a rule without payload options with bytes to deliver, nothing
alerts twice. -/
theorem rules_alert_once {transitions : List (Transition TcpState (ParsedPacket × UInt64))}
    (run : Execution probe.tcpStep .initial transitions last)
    (careful : ∀ transition ∈ transitions,
      NothingAgainTcp probe transition.before transition.event) :
    ∀ past transition rest, transitions = past ++ transition :: rest →
      AlertsOnce probe past transition := by
  refine run.forall_history (fun holds careful here => holds.step careful here) ?_
    followed_initial careful
  intro past state event later holds careful _
  refine ⟨fun key reverse chunk delivers rule _ occurrence => ?_, fun rule only => ?_⟩
  · exact count_directionOccurrences kept_fresh (holds.delivers careful delivers)
  · exact count_packetHits careful only

def Probe.tcpRun (probe : Probe) (state : TcpState) :
    List (ParsedPacket × UInt64) → List (Transition TcpState (ParsedPacket × UInt64))
  | [] => []
  | arrival :: later =>
      let next := (probe.handleTcp state arrival.1 arrival.2).1
      ⟨state, arrival, next⟩ :: probe.tcpRun next later

theorem execution_tcpRun {arrivals : List (ParsedPacket × UInt64)} :
    ∃ last, Execution probe.tcpStep state (probe.tcpRun state arrivals) last := by
  induction arrivals generalizing state with
  | nil => exact ⟨state, .stop state⟩
  | cons arrival later ih =>
      obtain ⟨last, run⟩ := @ih (probe.handleTcp state arrival.1 arrival.2).1
      exact ⟨last, .next rfl run⟩

def arrivalSample (seq : UInt32) (data : List UInt8) : ParsedPacket × UInt64 :=
  ({ (chunkSample data).packet with tcpSeq := seq }, 0)

/-- "xa" and "b" meet the rule once, on the second packet. -/
theorem rules_alert_once_sample :
    ∃ last, Execution (probeSample [ruleSample .tcp] (by decide)).tcpStep .initial
        ((probeSample [ruleSample .tcp] (by decide)).tcpRun .initial
          [arrivalSample 0 [120, 97], arrivalSample 2 [98]]) last ∧
      ∀ past transition rest,
        (probeSample [ruleSample .tcp] (by decide)).tcpRun .initial
            [arrivalSample 0 [120, 97], arrivalSample 2 [98]] = past ++ transition :: rest →
          AlertsOnce (probeSample [ruleSample .tcp] (by decide)) past transition := by
  obtain ⟨last, run⟩ := @execution_tcpRun (probeSample [ruleSample .tcp] (by decide)) .initial
    [arrivalSample 0 [120, 97], arrivalSample 2 [98]]
  exact ⟨last, run, rules_alert_once run (by decide)⟩

/-- A content of one byte beside one of three, whose length the tail is made for. -/
def mixedRules : List Rule :=
  [{ ruleSample .tcp with contents := [⟨⟨[97], by simp⟩, .raw, false, none, none, none, none⟩] },
    { ruleSample .tcp with
      sid := 2, contents := [⟨⟨[120, 121, 122], by simp⟩, .raw, false, none, none, none, none⟩] }]

/-- The first rule finds its byte again when the next packet comes. -/
theorem short_pattern_alerts_twice :
    ¬∀ (probe : Probe) (last : TcpState)
        (transitions : List (Transition TcpState (ParsedPacket × UInt64))),
      Execution probe.tcpStep .initial transitions last →
        ∀ past transition rest, transitions = past ++ transition :: rest →
          AlertsOnce probe past transition := by
  intro always
  obtain ⟨last, run⟩ := @execution_tcpRun (probeSample mixedRules (by decide)) .initial
    [arrivalSample 0 [97], arrivalSample 1 [98]]
  have once := (always _ last _ run [_] _ [] rfl).payload
    (arrivalSample 1 [98]).1.flowKey (!(arrivalSample 1 [98]).1.forward)
    ⟨(arrivalSample 1 [98]).1, [98]⟩ (by decide) (mixedRules.head (by decide)) rfl
    (.window [1])
  exact absurd once (by decide)

end Runs

end Idsm.EthProbe
