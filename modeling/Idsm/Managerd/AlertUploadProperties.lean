import Idsm.Managerd.AlertQueueProperties
import Idsm.Managerd.AlertUpload

/-! An alert stays in the queue until the broker has it, when a batch is marked only
after the broker received its envelope. -/

set_option autoImplicit false

namespace Idsm.Managerd

open Idsm.Foundation
open Idsm.Json (dump)

section Envelope

variable (library : EnvelopeLibrary)

def ValidAlert (line : List UInt8) : Prop := ∃ alert, parseAlertLine library line = .ok alert

/-- The payload is an envelope with the line's record in it. -/
def Carries (payload : String) (line : List UInt8) : Prop :=
  ∃ source nowMs content record,
    payload = dump library.floatText (envelopeDocument
      ("alert_" ++ nodeTypeToTopicSeg source.nodeType) nowMs source.manufacturer content) none ∧
    alertContent library source line = some record ∧ record ∈ content

def Received (broker : List Message) (line : List UInt8) : Prop :=
  ∃ message ∈ broker, Carries library message.payload line

variable {library} {source : AlertSource} {line : List UInt8} {batch : List (List UInt8)}

theorem alertContent_valid (valid : ValidAlert library line) :
    ∃ record, alertContent library source line = some record := by
  obtain ⟨alert, parsed⟩ := valid
  rw [alertContent, parsed]
  exact ⟨_, rfl⟩

theorem dump_envelope_ne {floatText : Json.Binary64 → String} {msgType manufacturer : String}
    {nowMs : Int} {content : List Json.Value} :
    dump floatText (envelopeDocument msgType nowMs manufacturer content) none ≠ "" := by
  have closed : ∀ text : String, text ++ "\x7d" ≠ "" := by
    intro text empty
    have symbols := congrArg String.toList empty
    rw [String.toList_append] at symbols
    exact absurd (List.append_eq_nil_iff.mp symbols).2 (by decide)
  unfold dump
  rw [envelopeDocument, Json.dumpAt, Json.objectText]
  unfold Json.bracketed
  split
  · exact closed _
  · exact closed _

/-- An empty envelope means that no line of the batch is an alert. -/
theorem buildAlertEnvelope_empty_iff {nowMs : Int} :
    buildAlertEnvelope library source nowMs batch = "" ↔
      ∀ line ∈ batch, ¬ ValidAlert library line := by
  unfold buildAlertEnvelope
  constructor
  · intro empty line member valid
    obtain ⟨record, found⟩ := @alertContent_valid _ source _ valid
    have listed : record ∈ batch.filterMap (alertContent library source) :=
      List.mem_filterMap.mpr ⟨line, member, found⟩
    rw [if_neg (List.ne_nil_of_mem listed)] at empty
    exact dump_envelope_ne empty
  · intro invalid
    rw [if_pos]
    apply List.filterMap_eq_nil_iff.mpr
    intro line member
    cases parsed : parseAlertLine library line with
    | error error => rw [alertContent, parsed]
    | ok alert => exact absurd ⟨alert, parsed⟩ (invalid line member)

theorem carries_of_built {nowMs : Int} (member : line ∈ batch) (valid : ValidAlert library line) :
    Carries library (buildAlertEnvelope library source nowMs batch) line := by
  obtain ⟨record, found⟩ := @alertContent_valid _ source _ valid
  have listed : record ∈ batch.filterMap (alertContent library source) :=
    List.mem_filterMap.mpr ⟨line, member, found⟩
  refine ⟨source, nowMs, _, record, ?_, found, listed⟩
  unfold buildAlertEnvelope
  rw [if_neg (List.ne_nil_of_mem listed)]

theorem Received.append {broker : List Message} {message : Message}
    (received : Received library broker line) : Received library (broker ++ [message]) line := by
  obtain ⟨other, member, carries⟩ := received
  exact ⟨other, List.mem_append_left _ member, carries⟩

end Envelope

section Loop

variable {κ : Type} (library : EnvelopeLibrary)

abbrev UploadPast (κ : Type) := List (Transition (Upload κ) (UploadEvent κ))

/-- A valid alert was appended to the channel with success and starts here. -/
def AlertStored (past : UploadPast κ) (channel : κ) (line : List UInt8) (start : Nat) : Prop :=
  ∃ transition ∈ past, ∃ rawLine, transition.event = .append channel rawLine .none ∧
    (transition.before.queues channel).isOpen = true ∧ line = textOf rawLine ∧
    ValidAlert library line ∧ start = (transition.before.queues channel).discarded +
      (transition.before.queues channel).log.length

/-- Every alert that a cursor has passed, in memory or on file, is with the broker, and only
batches without an alert are dropped. -/
structure Durable (past : UploadPast κ) (transition : Transition (Upload κ) (UploadEvent κ)) :
    Prop where
  covered : ∀ channel line start,
    AlertStored library (past ++ [transition]) channel line start →
    start < (transition.after.queues channel).discarded +
      max (transition.after.queues channel).cursor (transition.after.queues channel).recovered →
    Received library transition.after.broker line
  dropped : ∀ channel batch, transition.before.position = .dropping channel batch →
    ∀ line ∈ batch, ¬ ValidAlert library line

/-- The broker has the envelope of a batch before the loop marks it; queue calls are
careful. -/
def CarefulUpload (upload : Upload κ) : UploadEvent κ → Prop
  | .append channel rawLine fault => CarefulCall (upload.queues channel) (.append rawLine fault)
  | .markUploaded env =>
      match upload.position with
      | .published channel _ message =>
          CarefulCall (upload.queues channel) (.markUploaded env) ∧
            ((upload.queues channel).Advances env → message ∈ upload.broker)
      | .dropping channel _ => CarefulCall (upload.queues channel) (.markUploaded env)
      | _ => True
  | _ => True

/-- The alerts between the cursor and the end of the read are in the batch. -/
def InBatch (past : UploadPast κ) (upload : Upload κ) (channel : κ) (batch : List (List UInt8)) :
    Prop :=
  ∀ line start, AlertStored library past channel line start →
    (upload.queues channel).discarded + (upload.queues channel).cursor ≤ start →
    start < (upload.queues channel).discarded + (upload.queues channel).pendingEnd → line ∈ batch

def AtPosition (past : UploadPast κ) (upload : Upload κ) : Prop :=
  match upload.position with
  | .idle => True
  | .taken channel batch => InBatch library past upload channel batch
  | .dropping channel batch => InBatch library past upload channel batch ∧
      ∀ line ∈ batch, ¬ ValidAlert library line
  | .published channel batch message => InBatch library past upload channel batch ∧
      ∀ line ∈ batch, ValidAlert library line → Carries library message.payload line

structure Secured (past : UploadPast κ) (upload : Upload κ) : Prop where
  kept : ∀ channel, (upload.queues channel).Kept (AlertStored library past channel)
    fun line _ => Received library upload.broker line
  position : AtPosition library past upload

end Loop

section Steps

variable {κ : Type} {library : EnvelopeLibrary} {past : UploadPast κ}
  {upload later : Upload κ} {channel : κ} {line : List UInt8} {start : Nat}
  {stored : κ → List UInt8 → Nat → Prop} {done : List UInt8 → Nat → Prop}

theorem secured_init : Secured library [] (Upload.init : Upload κ) where
  kept := fun _ => AlertQueue.kept_empty fun _ _ ⟨_, impossible, _⟩ => List.not_mem_nil impossible
  position := trivial

theorem alertStored_last {event : UploadEvent κ}
    (found : AlertStored library (past ++ [⟨upload, event, later⟩]) channel line start) :
    AlertStored library past channel line start ∨ ∃ rawLine, event = .append channel rawLine .none ∧
      (upload.queues channel).isOpen = true ∧ line = textOf rawLine ∧
      start = (upload.queues channel).discarded + (upload.queues channel).log.length := by
  obtain ⟨transition, member, rawLine, same, opened, text, _, place⟩ := found
  obtain before | here := List.mem_append.mp member
  · exact .inl ⟨transition, before, rawLine, same, opened, text, ‹_›, place⟩
  · obtain rfl := List.mem_singleton.mp here
    exact .inr ⟨rawLine, same, opened, text, place⟩

/-- The loop stays where it is when the windows of its batches do. -/
theorem AtPosition.map {other : UploadPast κ} (located : AtPosition library past upload)
    (same : later.position = upload.position)
    (windows : ∀ channel batch, InBatch library past upload channel batch →
      InBatch library other later channel batch) : AtPosition library other later := by
  unfold AtPosition at located ⊢
  rw [same]
  cases stays : upload.position with
  | idle => trivial
  | taken channel batch =>
      rw [stays] at located
      exact windows channel batch located
  | dropping channel batch =>
      rw [stays] at located
      exact ⟨windows channel batch located.1, located.2⟩
  | published channel batch message =>
      rw [stays] at located
      exact ⟨windows channel batch located.1, located.2⟩

/-- Every event but an append leaves no new alert to account for. -/
theorem secured_of_kept {event : UploadEvent κ}
    (silent : ∀ channel rawLine fault, event ≠ .append channel rawLine fault)
    (kept : ∀ channel, (later.queues channel).Kept (AlertStored library past channel)
      fun line _ => Received library later.broker line)
    (position : AtPosition library past later) :
    Secured library (past ++ [⟨upload, event, later⟩]) later := by
  have fewer : ∀ channel line start,
      AlertStored library (past ++ [⟨upload, event, later⟩]) channel line start →
      AlertStored library past channel line start := by
    intro channel line start found
    obtain known | ⟨rawLine, appends, _⟩ := alertStored_last found
    · exact known
    · exact absurd appends (silent channel rawLine .none)
  exact ⟨fun channel => (kept channel).narrow (fewer channel), position.map rfl
    fun channel _ window line start found => window line start (fewer channel line start found)⟩

theorem kept_restart (kept : ∀ other, (upload.queues other).Kept (stored other) done) :
    ∀ other, (upload.restart.queues other).Kept (stored other) done :=
  fun other => (kept other).restart

theorem Secured.deliver {message : Message} {acknowledged : Bool}
    (secured : Secured library past upload) :
    Secured library
      (past ++ [⟨upload, .deliver message acknowledged, upload.deliver message acknowledged⟩])
      (upload.deliver message acknowledged) :=
  secured_of_kept (fun _ _ _ => by simp)
    (fun channel => (secured.kept channel).mono fun _ _ received => received.append)
    secured.position

theorem Secured.publish {args : UploadArgs κ} {ruleVersion : String} {nowMs : Int} {accepted : Bool}
    {batch : List (List UInt8)} (secured : Secured library past upload)
    (taken : upload.position = .taken channel batch)
    (ran : upload.publish args library channel batch ruleVersion nowMs accepted = later) :
    Secured library (past ++ [⟨upload, .publish ruleVersion nowMs accepted, later⟩]) later := by
  have located := secured.position
  rw [AtPosition, taken] at located
  unfold Upload.publish at ran
  by_cases empty :
      buildAlertEnvelope library (args.source channel ruleVersion) nowMs batch = ""
  · rw [if_pos empty] at ran
    subst ran
    exact secured_of_kept (fun _ _ _ => by simp) secured.kept
      ⟨located, buildAlertEnvelope_empty_iff.1 empty⟩
  · rw [if_neg empty] at ran
    cases accepted with
    | true =>
        subst ran
        exact secured_of_kept (fun _ _ _ => by simp) secured.kept
          ⟨located, fun line member valid => carries_of_built member valid⟩
    | false =>
        subst ran
        exact secured_of_kept (fun _ _ _ => by simp) secured.kept trivial

theorem afterTake_cases (channel : κ) (batch : List (List UInt8)) (upload : Upload κ) :
    upload.afterTake channel batch = upload ∨
      upload.afterTake channel batch = { upload with position := .taken channel batch } := by
  unfold Upload.afterTake
  split
  · exact .inl rfl
  · exact .inr rfl

theorem Secured.durable {event : UploadEvent κ} (secured : Secured library past upload)
    (kept : Secured library (past ++ [⟨upload, event, later⟩]) later) :
    Durable library past ⟨upload, event, later⟩ where
  covered := by
    intro channel line start found passed
    have here := kept.kept channel
    rw [here.recovered] at passed
    obtain first | second := Nat.le_total (later.queues channel).cursor
      (later.queues channel).persisted
    · rw [Nat.max_eq_right first] at passed
      exact here.persisted line start found passed
    · rw [Nat.max_eq_left second] at passed
      exact here.cursor line start found passed
  dropped := by
    intro channel batch dropping
    have located := secured.position
    rw [AtPosition, show upload.position = .dropping channel batch from dropping] at located
    exact located.2

variable [DecidableEq κ]

theorem call_cases {α : Type} (upload : Upload κ) (channel : κ) (program : QueueProgram α)
    (next : α → Upload κ → Upload κ) :
    (∃ value queue, program.run (upload.queues channel) = .returned value queue ∧
      upload.call channel program next = next value (upload.setQueue channel queue)) ∨
    ∃ queue, program.run (upload.queues channel) = .crashed queue ∧
      upload.call channel program next = (upload.setQueue channel queue).restart := by
  unfold Upload.call
  cases ran : program.run (upload.queues channel) with
  | returned value queue => exact .inl ⟨value, queue, rfl, rfl⟩
  | threw error queue => exact nomatch error
  | crashed queue => exact .inr ⟨queue, rfl, rfl⟩

theorem kept_setQueue {queue : AlertQueue}
    (kept : ∀ other, other ≠ channel → (upload.queues other).Kept (stored other) done)
    (here : queue.Kept (stored channel) done) :
    ∀ other, ((upload.setQueue channel queue).queues other).Kept (stored other) done := by
  intro other
  unfold Upload.setQueue
  by_cases same : other = channel
  · subst same
    simpa only [if_true] using here
  · simpa only [same, if_false] using kept other same

/-- Of the queue a crash interrupted only the files count. -/
theorem kept_crashed {queue : AlertQueue}
    (kept : ∀ other, other ≠ channel → (upload.queues other).Kept (stored other) done)
    (here : queue.restart.Kept (stored channel) done) :
    ∀ other, ((upload.setQueue channel queue).restart.queues other).Kept (stored other) done := by
  intro other
  by_cases same : other = channel
  · subst same
    simpa only [Upload.restart, Upload.setQueue, if_true] using here
  · simpa only [Upload.restart, Upload.setQueue, same, if_false] using (kept other same).restart

/-- An append on any channel leaves the window of the batch alone. -/
theorem InBatch.append {log : List UInt8} {rawLine : List UInt8} {fault : Fault} {other : κ}
    {batch : List (List UInt8)} (inBatch : InBatch library past upload other batch)
    (inside : (upload.queues other).pendingEnd ≤ (upload.queues other).log.length) :
    InBatch library
      (past ++ [⟨upload, .append channel rawLine fault,
        upload.setQueue channel { upload.queues channel with log }⟩])
      (upload.setQueue channel { upload.queues channel with log }) other batch := by
  have frame : ((upload.setQueue channel { upload.queues channel with log }).queues other).discarded =
        (upload.queues other).discarded ∧
      ((upload.setQueue channel { upload.queues channel with log }).queues other).cursor =
        (upload.queues other).cursor ∧
      ((upload.setQueue channel { upload.queues channel with log }).queues other).pendingEnd =
        (upload.queues other).pendingEnd := by
    unfold Upload.setQueue
    by_cases same : other = channel
    · subst same
      simp only [if_true, and_self]
    · simp only [same, if_false, and_self]
  intro line start found after before
  rw [frame.1, frame.2.1] at after
  rw [frame.1, frame.2.2] at before
  obtain known | ⟨_, _, _, _, rfl⟩ := alertStored_last found
  · exact inBatch line start known after before
  · omega

theorem append_returned {rawLine : List UInt8} {fault : Fault} {queue queue' : AlertQueue}
    {appended : Bool} (ran : (AlertQueue.append rawLine fault).run queue = .returned appended queue') :
    ∃ log, queue' = { queue with log } := by
  rw [AlertQueue.append, Program.run_bind, Program.run_inspect, Outcome.andThen_returned] at ran
  split at ran
  · cases fault with
    | none =>
        cases ran
        exact ⟨_, rfl⟩
    | fail progress =>
        cases ran
        exact ⟨_, rfl⟩
    | crash progress => cases ran
  · cases ran
    exact ⟨_, rfl⟩

theorem Secured.append {rawLine : List UInt8} {fault : Fault} (secured : Secured library past upload)
    (careful : CarefulCall (upload.queues channel) (.append rawLine fault))
    (ran : upload.call channel (AlertQueue.append rawLine fault) (fun _ later => later) = later) :
    Secured library (past ++ [⟨upload, .append channel rawLine fault, later⟩]) later := by
  have others : ∀ other, other ≠ channel → ∀ line start,
      AlertStored library (past ++ [⟨upload, .append channel rawLine fault, later⟩]) other line start →
      AlertStored library past other line start := by
    intro other different line start found
    obtain known | ⟨_, same, _⟩ := alertStored_last found
    · exact known
    · exact absurd (UploadEvent.append.inj same).1.symm different
  have grows : ∀ line start,
      AlertStored library (past ++ [⟨upload, .append channel rawLine fault, later⟩]) channel line
        start →
      AlertStored library past channel line start ∨ (upload.queues channel).isOpen = true ∧
        fault = .none ∧ line = textOf rawLine ∧
        start = (upload.queues channel).discarded + (upload.queues channel).log.length := by
    intro line start found
    obtain known | ⟨raw, same, opened, text, place⟩ := alertStored_last found
    · exact .inl known
    · obtain ⟨_, rfl, rfl⟩ := UploadEvent.append.inj same
      exact .inr ⟨opened, rfl, text, place⟩
  have here := (secured.kept channel).append careful grows
  have rest : ∀ other, other ≠ channel → (upload.queues other).Kept
      (AlertStored library (past ++ [⟨upload, .append channel rawLine fault, later⟩]) other)
      fun line _ => Received library upload.broker line :=
    fun other different => (secured.kept other).narrow (others other different)
  obtain ⟨value, queue, ended, same⟩ | ⟨queue, ended, same⟩ :=
    call_cases upload channel (AlertQueue.append rawLine fault) fun _ later => later
  · obtain ⟨log, rfl⟩ := append_returned ended
    rw [ended] at here
    rw [ran] at same
    subst same
    exact ⟨kept_setQueue rest here, secured.position.map rfl
      fun other _ window => window.append (secured.kept other).pendingEnd_le⟩
  · rw [ended] at here
    rw [ran] at same
    subst same
    exact ⟨kept_crashed rest here.restart, trivial⟩

theorem resting_setQueue {queue : AlertQueue} (idle : upload.position = .idle) :
    AtPosition library past (upload.setQueue channel queue) := by
  unfold AtPosition
  rw [show (upload.setQueue channel queue).position = .idle from idle]
  trivial

theorem Secured.open {fault : Fault} (secured : Secured library past upload)
    (idle : upload.position = .idle)
    (ran : upload.call channel (AlertQueue.open fault) (fun _ later => later) = later) :
    Secured library (past ++ [⟨upload, .open channel fault, later⟩]) later := by
  have others := fun other (_ : other ≠ channel) => secured.kept other
  have here := (secured.kept channel).open fault
  obtain ⟨value, queue, ended, same⟩ | ⟨queue, ended, same⟩ :=
    call_cases upload channel (AlertQueue.open fault) fun _ later => later
  · rw [ended] at here
    rw [ran] at same
    subst same
    exact secured_of_kept (fun _ _ _ => by simp) (kept_setQueue others here) (resting_setQueue idle)
  · rw [ended] at here
    rw [ran] at same
    subst same
    exact secured_of_kept (fun _ _ _ => by simp) (kept_crashed others here.restart) trivial

theorem Secured.take {fault : Fault} (secured : Secured library past upload)
    (idle : upload.position = .idle)
    (ran : upload.call channel (AlertQueue.pending batchSize fault) (Upload.afterTake channel) =
      later) :
    Secured library (past ++ [⟨upload, .take channel fault, later⟩]) later := by
  have others := fun other (_ : other ≠ channel) => secured.kept other
  obtain read | read | ⟨batch, pendingEnd, _, read, kept, _, _, window⟩ :=
    (secured.kept channel).pending_cases batchSize fault
  · unfold Upload.call at ran
    rw [read] at ran
    subst ran
    exact secured_of_kept (fun _ _ _ => by simp) (kept_setQueue others (secured.kept channel))
      (resting_setQueue idle)
  · unfold Upload.call at ran
    rw [read] at ran
    subst ran
    exact secured_of_kept (fun _ _ _ => by simp)
      (kept_crashed others (secured.kept channel).restart) trivial
  · unfold Upload.call at ran
    rw [read] at ran
    obtain same | same := afterTake_cases channel batch
      (upload.setQueue channel { upload.queues channel with pendingEnd })
    · have ended := same.symm.trans ran
      subst ended
      exact secured_of_kept (fun _ _ _ => by simp) (kept_setQueue others kept)
        (resting_setQueue idle)
    · have ended := same.symm.trans ran
      subst ended
      refine secured_of_kept (fun _ _ _ => by simp) (kept_setQueue others kept) ?_
      intro line start found after before
      simp only [Upload.setQueue, if_true] at after before
      exact window line start found after before

theorem Secured.marked {env : MarkStep → Fault} (secured : Secured library past upload)
    (covered : (upload.queues channel).Advances env →
      Covered (AlertStored library past channel) (fun line _ => Received library upload.broker line)
        ((upload.queues channel).discarded + (upload.queues channel).pendingEnd))
    (careful : CarefulCall (upload.queues channel) (.markUploaded env))
    (ran : (upload.call channel (AlertQueue.markUploaded env) fun _ later =>
      { later with position := .idle }) = later) :
    Secured library (past ++ [⟨upload, .markUploaded env, later⟩]) later := by
  have others := fun other (_ : other ≠ channel) => secured.kept other
  have here := ((secured.kept channel).markUploaded covered careful).1
  obtain ⟨value, queue, ended, same⟩ | ⟨queue, ended, same⟩ :=
    call_cases upload channel (AlertQueue.markUploaded env) fun _ later =>
      { later with position := .idle }
  · rw [ended] at here
    rw [ran] at same
    subst same
    exact secured_of_kept (fun _ _ _ => by simp) (kept_setQueue others here) trivial
  · rw [ended] at here
    rw [ran] at same
    subst same
    exact secured_of_kept (fun _ _ _ => by simp) (kept_crashed others here) trivial

theorem Secured.markUploaded {env : MarkStep → Fault} (secured : Secured library past upload)
    (careful : CarefulUpload upload (.markUploaded env))
    (marking : upload.position.marking = some channel)
    (ran : (upload.call channel (AlertQueue.markUploaded env) fun _ later =>
      { later with position := .idle }) = later) :
    Secured library (past ++ [⟨upload, .markUploaded env, later⟩]) later := by
  have located := secured.position
  unfold AtPosition at located
  unfold CarefulUpload at careful
  -- A line before the cursor is with the broker; one behind it is in the batch.
  have covered : ∀ batch, InBatch library past upload channel batch →
      (∀ line ∈ batch, ValidAlert library line → Received library upload.broker line) →
      Covered (AlertStored library past channel) (fun line _ => Received library upload.broker line)
        ((upload.queues channel).discarded + (upload.queues channel).pendingEnd) := by
    intro batch window done line start found before
    obtain passed | ahead := Nat.lt_or_ge start
      ((upload.queues channel).discarded + (upload.queues channel).cursor)
    · exact (secured.kept channel).cursor line start found passed
    · obtain ⟨_, _, _, _, _, _, valid, _⟩ := id found
      exact done line (window line start found ahead before) valid
  cases stays : upload.position with
  | idle =>
      rw [stays] at marking
      exact nomatch marking
  | taken other batch =>
      rw [stays] at marking
      exact nomatch marking
  | dropping other batch =>
      rw [stays] at marking located careful
      obtain rfl := Option.some.inj marking
      exact secured.marked (fun _ => covered batch located.1 fun line member valid =>
        absurd valid (located.2 line member)) careful ran
  | published other batch message =>
      rw [stays] at marking located careful
      obtain rfl := Option.some.inj marking
      exact secured.marked (fun advances => covered batch located.1 fun line member valid =>
        ⟨message, careful.2 advances, located.2 line member valid⟩) careful.1 ran

theorem Secured.step {args : UploadArgs κ} {event : UploadEvent κ}
    (secured : Secured library past upload) (careful : CarefulUpload upload event)
    (stepped : uploadStep args library upload event = some later) :
    Secured library (past ++ [⟨upload, event, later⟩]) later := by
  cases event with
  | «open» channel fault =>
      rw [uploadStep] at stepped
      split at stepped
      next idle =>
        split at stepped
        next => exact nomatch stepped
        next => exact secured.open idle (Option.some.inj stepped)
      next => exact nomatch stepped
  | append channel rawLine fault => exact secured.append careful (Option.some.inj stepped)
  | take channel fault =>
      rw [uploadStep] at stepped
      split at stepped
      next idle => exact secured.take idle (Option.some.inj stepped)
      next => exact nomatch stepped
  | publish ruleVersion nowMs accepted =>
      rw [uploadStep] at stepped
      split at stepped
      next channel batch taken =>
        exact secured.publish taken (Option.some.inj stepped)
      next => exact nomatch stepped
  | markUploaded env =>
      obtain ⟨channel, marking, ran⟩ := Option.map_eq_some_iff.mp stepped
      exact secured.markUploaded careful marking ran
  | deliver message acknowledged =>
      rw [uploadStep] at stepped
      split at stepped
      next =>
        obtain rfl := Option.some.inj stepped
        exact secured.deliver
      next => exact nomatch stepped
  | disconnect =>
      obtain rfl := Option.some.inj stepped
      exact secured_of_kept (fun _ _ _ => by simp) secured.kept secured.position
  | crash =>
      obtain rfl := Option.some.inj stepped
      exact secured_of_kept (fun _ _ _ => by simp) (kept_restart secured.kept) trivial

end Steps

theorem upload_durable_of_received {κ : Type} [DecidableEq κ] (args : UploadArgs κ)
    (library : EnvelopeLibrary) {transitions : UploadPast κ} {last : Upload κ}
    (run : Execution (uploadStep args library) Upload.init transitions last)
    (careful : ∀ transition ∈ transitions, CarefulUpload transition.before transition.event) :
    ∀ past transition rest, transitions = past ++ transition :: rest →
      Durable library past transition :=
  run.forall_history (fun secured careful stepped => secured.step careful stepped)
    (fun secured careful stepped => secured.durable (secured.step careful stepped))
    secured_init careful

/-! One alert and one channel. -/

section Sample

variable {κ : Type} [DecidableEq κ] {args : UploadArgs κ} {library : EnvelopeLibrary}
  {upload : Upload κ}

theorem uploadStep_publish {channel : κ} {batch : List (List UInt8)} {ruleVersion : String}
    {nowMs : Int} (taken : upload.position = .taken channel batch)
    (nonempty : buildAlertEnvelope library (args.source channel ruleVersion) nowMs batch ≠ "") :
    uploadStep args library upload (.publish ruleVersion nowMs true) =
      some { upload with
        position := .published channel batch ⟨args.topic channel,
          buildAlertEnvelope library (args.source channel ruleVersion) nowMs batch⟩
        outQueue := upload.outQueue ++ [⟨args.topic channel,
          buildAlertEnvelope library (args.source channel ruleVersion) nowMs batch⟩] } := by
  rw [uploadStep]
  simp only [taken, Upload.publish, if_neg nonempty, if_true]

theorem uploadStep_deliver {message : Message} {acknowledged : Bool}
    (queued : message ∈ upload.outQueue) :
    uploadStep args library upload (.deliver message acknowledged) =
      some (upload.deliver message acknowledged) := if_pos queued

def alertSample : List UInt8 := utf8 "\x7b\"event_id\":1\x7d"

def argsSample : UploadArgs Unit := ⟨"maker", "device", fun _ => "HIDPS", fun _ => "ecu"⟩

theorem valid_alertSample : ValidAlert envelopeLibrarySample alertSample := by
  have accepted : (parseAlertLine envelopeLibrarySample alertSample).isOk = true := by
    decide +kernel
  cases parsed : parseAlertLine envelopeLibrarySample alertSample with
  | error error =>
      rw [parsed] at accepted
      exact nomatch accepted
  | ok alert => exact ⟨alert, parsed⟩

theorem envelope_alertSample : buildAlertEnvelope envelopeLibrarySample (argsSample.source () "") 0
    [alertSample] ≠ "" := by decide +kernel

def messageSample : Message :=
  ⟨argsSample.topic (), buildAlertEnvelope envelopeLibrarySample (argsSample.source () "") 0
    [alertSample]⟩

theorem upload_durable_sample :
    ∃ transitions last,
      Execution (uploadStep argsSample envelopeLibrarySample) Upload.init transitions last ∧
      last.broker = [messageSample] ∧ (last.queues ()).log = [] ∧
      ∀ past transition rest, transitions = past ++ transition :: rest →
        Durable envelopeLibrarySample past transition := by
  have run :=
    Execution.startingWith (.open () .none)
      (show uploadStep argsSample envelopeLibrarySample Upload.init _ = some _ from rfl)
    (.startingWith (.append () alertSample .none) rfl
    (.startingWith (.take () .none) rfl
    (.startingWith (.publish "" 0 true) (uploadStep_publish rfl envelope_alertSample)
    (.startingWith (.deliver messageSample true) (uploadStep_deliver (List.mem_singleton.mpr rfl))
    (.startingWith (.markUploaded soundMark) rfl (.stop _))))))
  refine ⟨_, _, run, rfl, rfl, upload_durable_of_received argsSample envelopeLibrarySample run ?_⟩
  simp only [List.forall_mem_cons]
  exact ⟨trivial, fun _ => ⟨by decide, trivial⟩, trivial, trivial, trivial,
    ⟨fun _ => .inl ⟨rfl, rfl⟩, fun _ => List.mem_singleton.mpr rfl⟩, fun _ none => nomatch none⟩

/-- The process dies when the alert is marked and only its memory has the message. -/
theorem upload_loses_unreceived_alert :
    ∃ transitions last,
      Execution (uploadStep argsSample envelopeLibrarySample) Upload.init transitions last ∧
      last.broker = [] ∧ last.outQueue = [] ∧ (last.queues ()).log = [] ∧
      ∃ past transition rest, transitions = past ++ transition :: rest ∧
        ¬ Durable envelopeLibrarySample past transition := by
  have run :=
    Execution.startingWith (.open () .none)
      (show uploadStep argsSample envelopeLibrarySample Upload.init _ = some _ from rfl)
    (.startingWith (.append () alertSample .none) rfl
    (.startingWith (.take () .none) rfl
    (.startingWith (.publish "" 0 true) (uploadStep_publish rfl envelope_alertSample)
    (.startingWith (.markUploaded soundMark) rfl
    (.startingWith .crash rfl (.stop _))))))
  refine ⟨_, _, run, rfl, rfl, rfl, _, _, [],
    (List.dropLast_append_getLast (List.cons_ne_nil _ _)).symm, ?_⟩
  intro durable
  obtain ⟨message, member, _⟩ := durable.covered () alertSample 0 ⟨_, .tail _ (.head _), alertSample,
    rfl, rfl, rfl, valid_alertSample, rfl⟩ (by decide)
  exact List.not_mem_nil member

end Sample

end Idsm.Managerd
