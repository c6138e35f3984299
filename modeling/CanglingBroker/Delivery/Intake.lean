import CanglingBroker.Delivery.Below
import CanglingBroker.Delivery.Wakeups
import CanglingBroker.Mqtt.Codec

/-!
# The topics that the intake takes

The handlers of gRPC, HTTP and MQTT check the topic on their own and then share `ingest`.
Only the MQTT handler checks it with `is_valid_publish_topic`, so exact topics are stored
and fanned out as long as the other two are given only these.
-/

namespace CanglingBroker

open Foundation
open Program (Asks asks_ask asks_bind asks_done)

namespace Delivery

/-! ## The handlers -/

def acts {Result : Type} : Delivery Result → Bool
  | .done _ => false
  | .perform _ _ => true

structure AcceptMessageRequest where
  topic : String
  payload : List UInt8
  attributes : String
  idempotencyKey : String
  deriving DecidableEq, Repr

/-- `AcceptMessageResponse`. -/
def Ingested.response : Ingested → String × Bool
  | .queued messageId duplicate => (messageId, duplicate)
  | .dropped messageId => (messageId, false)

/-- One message of the stream of `QueueService::accept_messages`. -/
def acceptMessages (message : AcceptMessageRequest) :
    Delivery (Except String (String × Bool)) := do
  if trimmed message.topic = "" then
    pure (.error "topic is required")
  else if message.payload = [] then
    pure (.error "payload is required")
  else
    match ←
      ingest (some message.idempotencyKey) (trimmed message.topic) message.payload
        message.attributes with
    | .ok ingested => pure (.ok ingested.response)
    | .error _ => pure (.error "could not persist message")

/-- `ingest_and_ack`: the packet that answers the publish, if any.  The only attribute is
the client's identifier; `attributes` is how that is written.  The text of an error of
`ingest` is left out. -/
def ingestAndAck (attributes : String) (publish : Mqtt.Publish) :
    Delivery (Except (Option String) (Option Mqtt.Packet)) := do
  let topic := trimmed publish.topic
  if isValidPublishTopic topic then
    match ← ingest none topic publish.payload attributes with
    | .error _ => pure (.error none)
    | .ok _ =>
      if min publish.qos 2 = 2 then
        pure (.ok (publish.packetId.map .pubRec))
      else if min publish.qos 2 = 1 then
        pure (.ok (publish.packetId.map .pubAck))
      else
        pure (.ok none)
  else
    pure (.error (some "invalid mqtt publish topic"))

end Delivery

/-- A message that comes in over one of the three ways, or any other call of the delivery
side. -/
inductive IntakeCall where
  | acceptMessages (message : Delivery.AcceptMessageRequest)
  | publishMessage (body : Delivery.PublishMessageBody)
  | ingestAndAck (attributes : String) (publish : Mqtt.Publish)
  | delivery (call : DeliveryCall)
  deriving DecidableEq, Repr

/-- What is answered. -/
inductive IntakeResult where
  | accepted (result : Except String (String × Bool))
  | published (result : Except Nat Delivery.Ingested)
  | acknowledged (result : Except (Option String) (Option Mqtt.Packet))
  | delivery (result : DeliveryResult)

def IntakeCall.body : IntakeCall → Delivery IntakeResult
  | .acceptMessages message => .accepted <$> Delivery.acceptMessages message
  | .publishMessage body => .published <$> Delivery.publishMessage body
  | .ingestAndAck attributes publish => .acknowledged <$> Delivery.ingestAndAck attributes publish
  | .delivery call => .delivery <$> call.body

def intakeComponent (validJson : String → Bool) :
    Component IntakeCall DeliveryAction DeliveryAction.Reply DeliveryState DeliveryChoice
      IntakeResult where
  perform := DeliveryState.perform validJson
  crash := DeliveryState.crash
  program := IntakeCall.body

abbrev IntakePool : Type :=
  Pool IntakeCall DeliveryAction DeliveryAction.Reply DeliveryState IntakeResult

abbrev IntakeEvent : Type := PoolEvent IntakeCall DeliveryChoice

def DeliveryCall.storedTopics : DeliveryCall → List String
  | .ingest _ topic _ _ => [topic]
  | .publishMessage body => [Delivery.trimmed body.topic]
  | .write inputs _ => inputs.map EnqueueInput.topic
  | .background call => call.enqueuedTopics
  | _ => []

/-- Messages are published by the three handlers only.  What a batch of the queue writer
stores has been handed to it. -/
def DeliveryCall.follows (handed : List String) : DeliveryCall → Bool
  | .ingest .. => false
  | .publishMessage _ => false
  | .write inputs _ => inputs.all fun input => input.topic ∈ handed
  | .background call => call.enqueuedTopics.isEmpty
  | _ => true

/-- The topic of a message that an action hands to the queue writer. -/
def DeliveryAction.handed : DeliveryAction → Option String
  | .admitMessage _ topic _ _ => some topic
  | _ => none

def allowsIntake (pool : IntakePool) : IntakeEvent → Bool
  | .spawn (.delivery call) =>
    call.follows (pool.history.filterMap fun entry => entry.request.handed)
  | _ => true

/-- Replay publishes among all the other calls of the delivery side. -/
def intake (validJson : String → Bool) (initial : Database) (events : List IntakeEvent) :
    Option IntakePool :=
  run (guarded allowsIntake (Pool.step (intakeComponent validJson)))
    (Pool.start (.start initial)) events

/-- The topic that an action passes to `fanout_ephemeral`, which begins with a look at the
subscribers of the topic.  Subscribe loops look at them too. -/
def IntakeCall.fansOut (call : IntakeCall) (request : DeliveryAction) : Option String :=
  match call, request with
  | .delivery _, _ => none
  | _, .matchingSenders topic => some topic
  | _, _ => none

/-- Every topic of a stored message and every topic that was fanned out is exact. -/
structure OnlyExact (pool : IntakePool) : Prop where
  stored : pool.shared.broker.shared.TopicsAre fun topic => isValidPublishTopic topic = true
  fanned :
    ∀ entry ∈ pool.history, ∀ topic ∈ entry.call.fansOut entry.request,
      isValidPublishTopic topic = true

namespace IntakeCall

/-- The handler takes the message: it does not answer at once. -/
def takes (call : IntakeCall) : Bool :=
  Delivery.acts call.body

/-- A message over gRPC or HTTP names an exact topic, unless it is refused. -/
def Exact : IntakeCall → Prop
  | .acceptMessages message =>
    Delivery.trimmed message.topic ≠ "" → message.payload ≠ [] →
      isValidPublishTopic (Delivery.trimmed message.topic) = true
  | .publishMessage body =>
    Delivery.trimmed body.topic ≠ "" → body.payload ≠ [] →
      isValidPublishTopic (Delivery.trimmed body.topic) = true
  | _ => True

instance : DecidablePred Exact
  | .acceptMessages message =>
    inferInstanceAs <| Decidable
      (Delivery.trimmed message.topic ≠ "" → message.payload ≠ [] →
        isValidPublishTopic (Delivery.trimmed message.topic) = true)
  | .publishMessage body =>
    inferInstanceAs <| Decidable
      (Delivery.trimmed body.topic ≠ "" → body.payload ≠ [] →
        isValidPublishTopic (Delivery.trimmed body.topic) = true)
  | .ingestAndAck .. => isTrue trivial
  | .delivery _ => isTrue trivial

def topics : IntakeCall → List String
  | .acceptMessages message =>
    if Delivery.trimmed message.topic = "" ∨ message.payload = [] then []
    else [Delivery.trimmed message.topic]
  | .publishMessage body =>
    if Delivery.trimmed body.topic = "" ∨ body.payload = [] then []
    else [Delivery.trimmed body.topic]
  | .ingestAndAck _ publish =>
    if isValidPublishTopic (Delivery.trimmed publish.topic) then
      [Delivery.trimmed publish.topic]
    else []
  | .delivery call => call.storedTopics

/-- An action passes on only the topics of its call. -/
structure Passes (call : IntakeCall) (request : DeliveryAction) : Prop where
  stores :
    ∀ started, request = .start started → ∀ topic ∈ started.enqueuedTopics, topic ∈ call.topics
  hands : ∀ topic ∈ request.handed, topic ∈ call.topics
  fans : ∀ topic ∈ call.fansOut request, topic ∈ call.topics

/-! ## What the handlers take -/

theorem takes_acceptMessages (message : Delivery.AcceptMessageRequest) :
    (acceptMessages message).takes = true ↔
      Delivery.trimmed message.topic ≠ "" ∧ message.payload ≠ [] := by
  unfold takes
  dsimp only [body, Delivery.acceptMessages]
  split
  · next noTopic => exact iff_of_false Bool.false_ne_true fun both => both.1 noTopic
  · next topic =>
    split
    · next noPayload => exact iff_of_false Bool.false_ne_true fun both => both.2 noPayload
    · next payload => exact iff_of_true rfl ⟨topic, payload⟩

theorem takes_publishMessage (message : Delivery.PublishMessageBody) :
    (publishMessage message).takes = true ↔
      Delivery.trimmed message.topic ≠ "" ∧ message.payload ≠ [] := by
  unfold takes
  dsimp only [body, Delivery.publishMessage]
  rw [ne_eq, ne_eq, ← not_or]
  split
  · next refused => exact iff_of_false Bool.false_ne_true (not_not_intro refused)
  · next taken => exact iff_of_true rfl taken

theorem takes_ingestAndAck (attributes : String) (publish : Mqtt.Publish) :
    (ingestAndAck attributes publish).takes = true ↔
      isValidPublishTopic (Delivery.trimmed publish.topic) = true := by
  unfold takes
  dsimp only [body, Delivery.ingestAndAck]
  split
  · next valid => exact iff_of_true rfl valid
  · next invalid => exact iff_of_false Bool.false_ne_true invalid

/-! ## What the calls pass on -/

section Passing

variable {call : IntakeCall} {Result : Type} {kinds : List DeliveryKind}

theorem passes_of_kind {request : DeliveryAction} (stores : request.kind ≠ .store)
    (hands : request.kind ≠ .admitMessage)
    (looks : request.kind ≠ .look ∨ ∃ inner, call = .delivery inner) :
    call.Passes request where
  stores := by
    rintro started rfl topic member
    cases started with
    | enqueue | enqueueBatch => exact absurd rfl stores
    | _ => exact absurd member List.not_mem_nil
  hands := by
    intro topic member
    cases request with
    | admitMessage => exact absurd rfl hands
    | _ => cases member
  fans := by
    intro topic member
    rcases looks with elsewhere | ⟨inner, rfl⟩
    · unfold fansOut at member
      split at member
      · cases member
      · exact absurd rfl elsewhere
      · cases member
    · cases member

theorem passes_quiet {program : Delivery Result} (speaks : Delivery.Speaks kinds program)
    (quiet : ∀ kind ∈ kinds, kind ≠ .store ∧ kind ≠ .admitMessage ∧ kind ≠ .look) :
    Asks call.Passes program :=
  Asks.mono speaks fun _ listed =>
    passes_of_kind (quiet _ listed).1 (quiet _ listed).2.1 (.inl (quiet _ listed).2.2)

theorem passes_act {request : DeliveryAction}
    (quiet : request.kind ≠ .store ∧ request.kind ≠ .admitMessage ∧ request.kind ≠ .look) :
    Asks call.Passes (Delivery.act request) :=
  asks_ask (passes_of_kind quiet.1 quiet.2.1 (.inl quiet.2.2))

theorem passes_database {started : Call}
    (stores : ∀ topic ∈ started.enqueuedTopics, topic ∈ call.topics) :
    Asks call.Passes (Delivery.database started) := by
  refine asks_bind (asks_ask ⟨fun other same => ?_, nofun, ?_⟩) fun thread => ?_
  · cases same
    exact stores
  · cases call <;> exact nofun
  · exact passes_act ⟨nofun, nofun, nofun⟩

theorem passes_fanoutEphemeral {topic : String} (payload : List UInt8) (attributes : String)
    (delivery : DeliveryMode) (given : topic ∈ call.topics) :
    Asks call.Passes (Delivery.fanoutEphemeral topic payload attributes delivery) := by
  refine asks_bind (asks_ask ⟨nofun, nofun, fun other fanned => ?_⟩) fun matching => ?_
  · unfold fansOut at fanned
    split at fanned
    · cases fanned
    · next isLook =>
      cases isLook
      cases fanned
      exact given
    · cases fanned
  dsimp only
  generalize (if delivery = .single then matching.take 1 else matching) = senders
  split
  · exact passes_quiet (Delivery.speaks_acceptDropped topic) (by decide)
  · refine asks_bind (passes_act ⟨nofun, nofun, nofun⟩) fun messageId => ?_
    refine asks_bind (asks_ask ⟨nofun, nofun, ?_⟩) fun createdAt => ?_
    · cases call <;> exact nofun
    refine asks_bind (passes_quiet (Delivery.speaks_fanout _ _) (by decide)) fun sent => ?_
    split
    · exact passes_quiet (Delivery.speaks_acceptDropped topic) (by decide)
    · refine asks_bind (passes_database nofun) fun outcome => ?_
      split
      · exact asks_done _
      · exact asks_done _

theorem passes_ingest {topic : String} (idempotencyKey : Option String) (payload : List UInt8)
    (attributes : String) (given : topic ∈ call.topics) :
    Asks call.Passes (Delivery.ingest idempotencyKey topic payload attributes) := by
  refine asks_bind (asks_bind (passes_database nofun) fun _ => asks_done _) fun found => ?_
  dsimp only
  split
  · exact passes_fanoutEphemeral payload attributes _ given
  · refine asks_bind (asks_ask ⟨nofun, fun other handed => ?_, ?_⟩) fun outcome => ?_
    · cases handed
      exact given
    · cases call <;> exact nofun
    · split
      · exact asks_done _
      · exact asks_done _

theorem passes_publishMessage {body : Delivery.PublishMessageBody}
    (given :
      ¬(Delivery.trimmed body.topic = "" ∨ body.payload = []) →
        Delivery.trimmed body.topic ∈ call.topics) :
    Asks call.Passes (Delivery.publishMessage body) := by
  unfold Delivery.publishMessage
  dsimp only
  split
  · exact asks_done _
  · next taken =>
    refine asks_bind (passes_database nofun) fun outcome => ?_
    split
    · exact asks_done _
    · split
      · refine asks_bind (passes_database fun topic member => ?_) fun stored => ?_
        · cases List.mem_singleton.mp member
          exact given taken
        · split
          · split
            · exact asks_done _
            · exact
                asks_bind (passes_quiet (Delivery.speaks_notify _) (by decide)) fun _ =>
                  asks_done _
          · exact asks_done _
      · refine asks_bind (passes_ingest _ _ _ (given taken)) fun ingested => ?_
        split
        · exact asks_done _
        · exact asks_done _

theorem passes_delivery {inner : DeliveryCall} {program : Delivery Result}
    (speaks : Delivery.Speaks kinds program)
    (quiet : ∀ kind ∈ kinds, kind ≠ .store ∧ kind ≠ .admitMessage) :
    Asks (delivery inner).Passes program :=
  Asks.mono speaks fun _ listed =>
    passes_of_kind (quiet _ listed).1 (quiet _ listed).2 (.inr ⟨inner, rfl⟩)

theorem passes_persist {inputs : List EnqueueInput}
    (given : ∀ topic ∈ inputs.map EnqueueInput.topic, topic ∈ call.topics) :
    ∀ bound, Asks call.Passes (Delivery.persist inputs bound)
  | 0 => passes_quiet (Delivery.speaks_never rfl : Delivery.Speaks [.never] _) (by decide)
  | more + 1 => by
    refine asks_bind (passes_database given) fun outcome => ?_
    split
    · exact asks_done _
    · exact passes_persist given more

theorem passes_write (inputs : List EnqueueInput) (bound : Nat) :
    Asks (delivery (.write inputs bound)).Passes (Delivery.write inputs bound) := by
  have given : ∀ topic ∈ inputs.map EnqueueInput.topic,
      topic ∈ (delivery (.write inputs bound)).topics := fun _ member => member
  refine asks_bind ?_ fun commands => ?_
  · exact passes_act ⟨nofun, nofun, nofun⟩
  refine asks_bind ?_ fun _ => ?_
  · unfold Delivery.writeEnqueues
    split
    · exact asks_done _
    · refine asks_bind (passes_persist given bound) fun results => ?_
      exact passes_quiet (Delivery.speaks_notifyFresh inputs results) (by decide)
  · split
    · exact asks_done _
    · refine asks_bind (passes_database nofun) fun outcome => ?_
      exact passes_quiet (Delivery.speaks_respondEach commands outcome) (by decide)

theorem passes_startBackground (started : Call) :
    Asks (delivery (.background started)).Passes (DeliveryCall.startBackground started) := by
  unfold DeliveryCall.startBackground
  split
  · refine asks_bind (asks_ask ⟨fun other same => ?_, nofun, nofun⟩) fun _ => asks_done _
    cases same
    exact fun _ member => member
  · exact passes_quiet (Delivery.speaks_never rfl : Delivery.Speaks [.never] _) (by decide)

theorem passes_deliveryCall (inner : DeliveryCall) : Asks (delivery inner).Passes inner.body := by
  have mapped : ∀ {Given : Type} {program : Delivery Given} {convert : Given → DeliveryResult},
      Asks (delivery inner).Passes program → Asks (delivery inner).Passes (convert <$> program) :=
    fun asks => asks_bind asks fun _ => asks_done _
  cases inner with
  | subscribe args bound =>
    exact mapped (passes_delivery (Delivery.speaks_runSubscribeLoop args bound) (by decide))
  | deliver task => exact mapped (passes_delivery (Delivery.speaks_deliver task) (by decide))
  | ackMessage ack => exact mapped (passes_delivery (Delivery.speaks_ackMessage ack) (by decide))
  | ackMessages batch =>
    exact mapped (passes_delivery (Delivery.speaks_ackMessages batch) (by decide))
  | pubAck | cancel | engine => exact mapped (passes_act ⟨nofun, nofun, nofun⟩)
  | consumeAck body maxAttempts =>
    exact mapped (passes_delivery (Delivery.speaks_consumeAck body maxAttempts) (by decide))
  | write inputs bound => exact mapped (passes_write inputs bound)
  | dispatch config token bound =>
    exact mapped (passes_delivery (Delivery.speaks_dispatchLoop config token bound) (by decide))
  | ingest idempotencyKey topic payload attributes =>
    refine mapped (passes_ingest idempotencyKey payload attributes ?_)
    exact List.mem_singleton_self topic
  | publishMessage => exact mapped (passes_publishMessage fun _ => List.mem_singleton_self _)
  | background started => exact passes_startBackground started

theorem asks_passes (call : IntakeCall) : Asks call.Passes call.body := by
  cases call with
  | acceptMessages message =>
    refine asks_bind ?_ fun _ => asks_done _
    unfold Delivery.acceptMessages
    split
    · exact asks_done _
    · next topic =>
      split
      · exact asks_done _
      · next payload =>
        have given : Delivery.trimmed message.topic ∈ (acceptMessages message).topics := by
          rw [topics, if_neg (not_or.mpr ⟨topic, payload⟩)]
          exact List.mem_singleton_self _
        refine asks_bind (passes_ingest _ _ _ given) fun ingested => ?_
        split
        · exact asks_done _
        · exact asks_done _
  | publishMessage =>
    refine asks_bind (passes_publishMessage fun taken => ?_) fun _ => asks_done _
    rw [topics, if_neg taken]
    exact List.mem_singleton_self _
  | ingestAndAck attributes publish =>
    refine asks_bind ?_ fun _ => asks_done _
    unfold Delivery.ingestAndAck
    dsimp only
    split
    · next valid =>
      have given : Delivery.trimmed publish.topic ∈ (ingestAndAck attributes publish).topics := by
        rw [topics, if_pos valid]
        exact List.mem_singleton_self _
      refine asks_bind (passes_ingest _ _ _ given) fun ingested => ?_
      split
      · exact asks_done _
      · split
        · exact asks_done _
        · split
          · exact asks_done _
          · exact asks_done _
    · exact asks_done _
  | delivery inner => exact asks_bind (passes_deliveryCall inner) fun _ => asks_done _

end Passing

theorem Exact.topics_valid {call : IntakeCall} (exact : call.Exact)
    (publishes : ∀ inner, call ≠ .delivery inner) :
    ∀ topic ∈ call.topics, isValidPublishTopic topic = true := by
  intro topic member
  cases call with
  | acceptMessages | publishMessage =>
    dsimp only [topics] at member
    split at member
    · cases member
    · next taken =>
      rw [List.mem_singleton.mp member]
      exact exact (not_or.mp taken).1 (not_or.mp taken).2
  | ingestAndAck =>
    dsimp only [topics] at member
    split at member
    · next valid =>
      rw [List.mem_singleton.mp member]
      exact valid
    · cases member
  | delivery inner => exact absurd rfl (publishes inner)

end IntakeCall

theorem DeliveryCall.mem_of_follows {handed : List String} {call : DeliveryCall}
    (follows : call.follows handed = true) :
    ∀ topic ∈ call.storedTopics, topic ∈ handed := by
  intro topic member
  cases call with
  | ingest => cases follows
  | publishMessage => cases follows
  | write =>
    obtain ⟨input, listed, rfl⟩ := List.mem_map.mp member
    exact of_decide_eq_true (List.all_eq_true.mp follows input listed)
  | background =>
    rw [storedTopics, List.isEmpty_iff.mp follows] at member
    cases member
  | _ => cases member

/-! ## Runs -/

section Runs

variable {validJson : String → Bool} {initial : Database} {events : List IntakeEvent}
  {pool : IntakePool}

theorem passes_of_replay
    (ran : Pool.replay (intakeComponent validJson) (.start initial) events = some pool) :
    ∀ entry ∈ pool.history, entry.call.Passes entry.request :=
  Pool.allowed_of_replay (fun call => (IntakeCall.asks_passes call).ensures []) ran

/-- Where the publishes are of exact topics, all calls pass on exact topics.  By induction
on the run: what the queue writer stores has been handed to it by an earlier call. -/
theorem spawned_topics_valid (ran : intake validJson initial events = some pool)
    (exact : ∀ call, .spawn call ∈ events → call.Exact) :
    ∀ call, .spawn call ∈ events → ∀ topic ∈ call.topics, isValidPublishTopic topic = true := by
  induction events using List.reverseRecOn generalizing pool with
  | nil => exact fun _ member => absurd member List.not_mem_nil
  | append_singleton _ _ ih =>
    obtain ⟨reached, ranEarlier, last⟩ := run_append_eq_some.mp ran
    have before := ih ranEarlier fun call member => exact call (List.mem_append_left _ member)
    intro call member
    rcases List.mem_append.mp member with older | newest
    · exact before call older
    · cases List.mem_singleton.mp newest
      cases call with
      | delivery =>
        have allowed := (run_guarded last).2.1
        intro topic stored
        obtain ⟨entry, listed, handed⟩ :=
          List.mem_filterMap.mp (DeliveryCall.mem_of_follows allowed topic stored)
        have replayed := (run_guarded ranEarlier).1
        exact Pool.performed_of_spawned before replayed entry listed topic
          ((passes_of_replay replayed entry listed).hands topic handed)
      | acceptMessages | publishMessage | ingestAndAck => exact (exact _ member).topics_valid nofun

theorem onlyExact_of_intake (ran : intake validJson initial events = some pool)
    (initially : initial.TopicsAre fun topic => isValidPublishTopic topic = true)
    (exact : ∀ call, .spawn call ∈ events → call.Exact) : OnlyExact pool := by
  have replayed := (run_guarded ran).1
  have passed := passes_of_replay replayed
  have valid := Pool.performed_of_spawned (spawned_topics_valid ran exact) replayed
  obtain ⟨scheduled, ranBelow, started⟩ := scheduled_of_replay rfl rfl replayed
  refine ⟨topicsAre_of_schedule ranBelow initially fun call member topic stored => ?_, ?_⟩
  · obtain ⟨entry, listed, asked⟩ := started call member
    exact valid entry listed topic ((passed entry listed).stores call asked topic stored)
  · intro entry listed topic fanned
    exact valid entry listed topic ((passed entry listed).fans topic fanned)

end Runs

/-- The three handlers agree on whether they take a message of this topic that has a
payload. -/
def AdmittedAlike (text : String) : Prop :=
  ∀ (message : Delivery.AcceptMessageRequest) (body : Delivery.PublishMessageBody)
    (attributes : String) (publish : Mqtt.Publish),
    message.topic = text → body.topic = text → publish.topic = text →
      message.payload ≠ [] → body.payload ≠ [] → (IntakeCall.acceptMessages message).takes =
          (IntakeCall.ingestAndAck attributes publish).takes ∧
          (IntakeCall.publishMessage body).takes =
            (IntakeCall.ingestAndAck attributes publish).takes

theorem admittedAlike_iff (text : String) : AdmittedAlike text ↔
    Delivery.trimmed text = "" ∨ isValidPublishTopic (Delivery.trimmed text) = true := by
  constructor
  · intro alike
    have same :=
      (alike ⟨text, [0], "", ""⟩ ⟨text, [0], "", none⟩ "" ⟨false, 0, false, text, none, []⟩ rfl
        rfl rfl nofun nofun).1
    by_cases empty : Delivery.trimmed text = ""
    · exact .inl empty
    · have taken :=
        (IntakeCall.takes_acceptMessages ⟨text, [0], "", ""⟩).mpr ⟨empty, nofun⟩
      rw [same] at taken
      exact .inr ((IntakeCall.takes_ingestAndAck _ _).mp taken)
  · rintro known message body attributes publish rfl same also payload alsoPayload
    have agree : (Delivery.trimmed message.topic ≠ "" ↔
        isValidPublishTopic (Delivery.trimmed message.topic) = true) := by
      rcases known with empty | valid
      · rw [empty]
        decide
      · refine iff_of_true (fun empty => ?_) valid
        rw [empty] at valid
        exact absurd valid (by decide)
    constructor
    · rw [Bool.eq_iff_iff, IntakeCall.takes_acceptMessages, IntakeCall.takes_ingestAndAck, also,
        ← agree]
      exact and_iff_left payload
    · rw [Bool.eq_iff_iff, IntakeCall.takes_publishMessage, IntakeCall.takes_ingestAndAck, also,
        same, ← agree]
      exact and_iff_left alsoPayload

/-- Runs whose publishes over gRPC and HTTP are of exact topics store and fan out only
exact topics, and on these topics, and on none that is not empty, the three ways agree. -/
theorem exact_topics_of_exact_publishes (validJson : String → Bool) :
    (∀ (initial : Database) (events : List IntakeEvent) (pool : IntakePool),
      initial.TopicsAre (fun topic => isValidPublishTopic topic = true) →
        (∀ call, .spawn call ∈ events → call.Exact) →
          intake validJson initial events = some pool → OnlyExact pool) ∧
      ∀ text : String, AdmittedAlike text ↔
          Delivery.trimmed text = "" ∨ isValidPublishTopic (Delivery.trimmed text) = true :=
  ⟨fun _ _ _ initially exact ran => onlyExact_of_intake ran initially exact, admittedAlike_iff⟩

/-- What the scheduler does on the delivery side, among publishes. -/
def alongside : PoolEvent DeliveryCall DeliveryChoice → IntakeEvent
  | .spawn call => .spawn (.delivery call)
  | .advance thread choice => .advance thread choice
  | .crash => .crash

def acceptAndFanOut (topic : String) : List IntakeEvent :=
  .spawn (.acceptMessages ⟨topic, [104, 105], "{}", ""⟩) ::
    (steps 0 1 ++ engineStep 1 0 {} ++ engineStep 2 0 {} ++ engineStep 3 0 {} ++
      steps 0 2).map alongside

/-- A message over HTTP for a topic that is configured to be persistent, up to the
transaction that stores it. -/
def publishAndStore (topic : String) : List IntakeEvent :=
  (.spawn (.background (.configureTopics [⟨topic, .single, .persistent⟩])) :: steps 0 1 ++
    engineStep 1 0 {} ++ engineStep 2 0 {} ++ engineStep 3 0 {} ++
    engineStep 4 0 {}).map alongside ++
  .spawn (.publishMessage ⟨topic, [104, 105], "{}", none⟩) ::
    (steps 5 1 ++ engineStep 6 1 {} ++ steps 5 2 ++ engineStep 7 2 { uuid := "u1" } ++
      engineStep 8 2 {} ++ engineStep 9 2 {}).map alongside

def startsExact : IntakeEvent → Bool
  | .spawn call => decide call.Exact
  | _ => true

theorem exact_topics_of_exact_publishes_jobs : ∃ pool,
    intake (fun _ => true) Database.empty (acceptAndFanOut "jobs") = some pool ∧
      "jobs" ∈ pool.history.filterMap (fun entry => entry.call.fansOut entry.request) ∧
      OnlyExact pool ∧ AdmittedAlike "jobs" := by
  have exactCalls : (acceptAndFanOut "jobs").all startsExact = true := by decide +kernel
  obtain ⟨onlyExact, alike⟩ := exact_topics_of_exact_publishes fun _ => true
  refine (exists_some_of_check (by decide +kernel)).imp fun pool reached =>
    ⟨reached.1, reached.2, ?_, ?_⟩
  · refine onlyExact _ _ pool (fun store row member => ?_) (fun call member => ?_) reached.1
    · cases store <;> cases member
    · exact of_decide_eq_true (List.all_eq_true.mp exactCalls _ member)
  · exact (alike "jobs").mpr (.inr (by decide +kernel))

/-- Over gRPC and HTTP a filter is taken for a topic: it is fanned out, or stored. -/
theorem wildcard_topic_fanned_out_and_stored : isValidPublishTopic "jobs/#" = false ∧
    (intake (fun _ => true) Database.empty (acceptAndFanOut "jobs/#")).any (fun pool =>
      decide
        ("jobs/#" ∈ pool.history.filterMap fun entry =>
          entry.call.fansOut entry.request)) = true ∧
    (intake (fun _ => true) Database.empty (publishAndStore "jobs/#")).any (fun pool =>
      decide
        ("jobs/#" ∈ (pool.shared.broker.shared.messages
          (.shard (topicShard "jobs/#"))).rows.map fun row => row.topic)) = true := by
  decide +kernel

end CanglingBroker
