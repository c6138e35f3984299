import CanglingBroker.Database.Exclusivity
import CanglingBroker.Database.Routing
import CanglingBroker.Delivery.State
import CanglingBroker.Foundation.Alone

/-!
# The calls that deliver messages

The subscribe loop with its delivery tasks, the acknowledgement requests, the dispatcher,
the batches of the queue writer and the intake, as programs over `DeliveryAction`.  A loop
without bound runs for as many rounds as it is given and then waits for ever.
-/

namespace CanglingBroker

open Foundation
open Program (Ran ran_ask ran_bind)

def ClaimedMessage.pair (message : ClaimedMessage) : String × String :=
  (message.id, message.lease)

abbrev Delivery (Result : Type) : Type := Program DeliveryAction DeliveryAction.Reply Result

structure DeliveryConfig where
  ackTimeoutSecs : Nat
  consumerTtlSecs : Nat
  consumerPrefetch : Nat
  claimBatchSize : Nat
  maxDeliveryAttempts : Int
  deriving DecidableEq, Repr

namespace DeliveryConfig

def visibility (config : DeliveryConfig) : Nat :=
  max config.ackTimeoutSecs 1 * second

def heartbeatEvery (config : DeliveryConfig) : Nat :=
  (if config.consumerTtlSecs = 0 then 30
    else max 1 (min (config.consumerTtlSecs / 3) 30)) * second

def batchLimit (config : DeliveryConfig) : Nat :=
  max 1 (min config.claimBatchSize 128)

end DeliveryConfig

structure SubscribeLoop where
  config : DeliveryConfig
  token : Nat
  topic : String
  session : String
  consumerId : String
  tx : StreamSender
  peer : String
  protocol : String
  version : String
  host : String
  deriving DecidableEq, Repr

/-- The message as a stream gets it. -/
def ClaimedMessage.outgoing (message : ClaimedMessage) (lease : String) : SatwayMessage where
  messageId := message.id
  topic := message.topic
  payload := message.payload
  attributes := message.attributes
  createdAt := message.createdAt
  lease := lease

def Value.messages : Value → List ClaimedMessage
  | .claimed messages => messages
  | _ => []

def Value.config? : Value → Option TopicConfig
  | .configs [config] => some config
  | _ => none

/-- `Result::ok` of a configuration lookup. -/
def settingsOf : Outcome → Option TopicConfig
  | .ok value => value.config?
  | .error _ => none

namespace Delivery

def act (action : DeliveryAction) : Delivery action.Reply :=
  Program.ask action

def database (call : Call) : Delivery Outcome := do
  let thread ← act (.start call)
  act (.await thread)

def notify (topic : String) : Delivery Unit := do
  act (.raise (some topic))
  act (.raise none)

/-- Release a claim, and tell the others when the message is back in the queue. -/
def release (message : ClaimedMessage) : Delivery Unit := do
  match ← database (.release message.id message.lease) with
  | .ok (.flag true) => notify message.topic
  | _ => pure ()

def forAll {Item : Type} (body : Item → Delivery Unit) : List Item → Delivery Unit
  | [] => pure ()
  | item :: rest => do
      body item
      forAll body rest

/-! ## The subscribe loop -/

def dropPermits (semaphore count : Nat) : Delivery Unit :=
  forAll (fun _ => act (.dropPermit semaphore)) (List.replicate count ())

/-- Take more permits while there are some. -/
def reserve (semaphore : Nat) : Nat → Delivery Nat
  | 0 => pure 0
  | more + 1 => do
      if ← act (.tryAcquire semaphore) then
        let later ← reserve semaphore more
        pure (later + 1)
      else
        pure 0

/-- Touch the consumer if its heartbeat is due. -/
def heartbeat (args : SubscribeLoop) (last : Nat) : Delivery Nat := do
  if args.consumerId = "" then
    pure last
  else
    let now ← act .now
    if args.config.heartbeatEvery ≤ now - last then
      let _ ← database (.touchConsumer args.consumerId)
      act .now
    else
      pure last

/-- A claimed message that waits to be sent, and when it was claimed.  It holds one
permit. -/
abbrev Ready : Type := ClaimedMessage × Nat

/-- What came of an attempt to claim. -/
inductive Refill where
  | stop
  | again (heartbeat : Nat)
  | filled (ready : List Ready)

/-- Claim as many messages as there are permits; wait when there are none. -/
def refill (args : SubscribeLoop) (watcher semaphore last : Nat) : Delivery Refill := do
  if ← act (.acquire semaphore args.token) then
    let more ← reserve semaphore (args.config.batchLimit - 1)
    let reserved := List.replicate (more + 1) ()
    let claimedAt ← act .now
    match ←
      database (.claimBatchForFilter args.topic args.config.visibility reserved.length) with
    | .error _ => do
        let slept ← act (.sleep args.token)
        dropPermits semaphore reserved.length
        pure (if slept then .again last else .stop)
    | .ok value => do
        let ready := (value.messages.zip reserved).map fun entry => (entry.1, claimedAt)
        dropPermits semaphore (reserved.length - ready.length)
        if ready.isEmpty then
          let touched ← heartbeat args last
          match ← act (.awaitChange watcher args.token) with
          | .changed => pure (.again touched)
          | .elapsed => pure (.again touched)
          | _ => pure .stop
        else
          pure (.filled ready)
  else
    pure .stop

/-- Send a message to each target under a lease of its own; the streams that took
it. -/
def sendEach (message : ClaimedMessage) :
    List (String × StreamSender) → Delivery (List AckWait)
  | [] => pure []
  | target :: rest => do
      let lease ← act .newLease
      let rx ← act (.register message.id lease)
      if ← act (.send target.2 (message.outgoing lease) message.pair) then
        let later ← sendEach message rest
        pure (⟨target.2, lease, rx⟩ :: later)
      else
        act (.cancelAck lease)
        act (.dropReceiver rx)
        sendEach message rest

/-- The streams a message is sent to. -/
def targets (args : SubscribeLoop) (topic : String) (broadcast : Bool) :
    Delivery (List (String × StreamSender)) := do
  if broadcast then
    let senders ← act (.matchingSenders topic)
    if senders.isEmpty then
      pure [(args.session, args.tx)]
    else
      pure senders
  else
    pure [(args.session, args.tx)]

def noSubscriber : String :=
  "no live subscriber accepted the message"

/-- What the loop does with a message that was sent, under the settings it found.
The result tells whether it goes on. -/
def settle (args : SubscribeLoop) (semaphore : Nat) (ready : Ready) (ephemeral : Bool)
    (waits : List AckWait) : Delivery Bool := do
  if ephemeral && !waits.isEmpty then
    forAll (fun wait => act (.cancelAck wait.lease)) waits
    let _ ← database (.delivered ready.1.id ready.1.lease)
    act (.dropPermit semaphore)
    pure true
  else if waits.isEmpty then
    let _ ←
      database <|
        if ephemeral then
          .dropClaimed ready.1.id ready.1.lease noSubscriber
        else
          .failed ready.1.id ready.1.lease noSubscriber args.config.maxDeliveryAttempts
    let closed ← act (.isClosed args.tx)
    act (.dropPermit semaphore)
    pure !closed
  else
    act <| .spawn
      { owner := semaphore
        message := ready.1
        waits := waits
        deadline := ready.2 + args.config.visibility
        token := args.token
        maxAttempts := args.config.maxDeliveryAttempts }
    pure true

/-- One message of the buffer.  The result tells whether the loop goes on. -/
def dispatch (args : SubscribeLoop) (semaphore : Nat) (ready : Ready) : Delivery Bool := do
  let now ← act .now
  if args.config.visibility / 2 ≤ now - ready.2 then
    release ready.1
    act (.dropPermit semaphore)
    pure true
  else
    let settings ← settingsOf <$> database (.topicConfig ready.1.topic)
    let broadcast := settings.any fun config => config.delivery = .broadcast
    let ephemeral := settings.any fun config => config.persistence = .ephemeral
    let streams ← targets args ready.1.topic broadcast
    let waits ← sendEach ready.1 streams
    settle args semaphore ready ephemeral waits

/-- The loop of `run_subscribe_loop`; what is left in its buffer when it stops. -/
def rounds (args : SubscribeLoop) (watcher semaphore : Nat) :
    Nat → List Ready → Nat → Delivery (List Ready)
  | 0, _, _ => do
      let blocked ← act .never
      nomatch blocked
  | more + 1, ready, last => do
      if ← act (.isCancelled args.token) then
        pure ready
      else if ← act (.isClosed args.tx) then
        pure ready
      else
        match ready with
        | entry :: rest => do
            if ← dispatch args semaphore entry then
              rounds args watcher semaphore more rest last
            else
              pure rest
        | [] => do
            match ← refill args watcher semaphore last with
            | .stop => pure []
            | .again touched => rounds args watcher semaphore more [] touched
            | .filled [] => pure []
            | .filled (entry :: rest) => do
                if ← dispatch args semaphore entry then
                  rounds args watcher semaphore more rest last
                else
                  pure rest

/-- Drop what is left of an ephemeral topic when its last subscriber leaves. -/
def lastSubscriberLeft (topic : String) : Delivery Unit := do
  if isWildcardFilter topic then
    pure ()
  else if ← act (.covers topic) then
    pure ()
  else
    let settings ← settingsOf <$> database (.topicConfig topic)
    if settings.any fun config => config.persistence = .ephemeral then
      let _ ← database (.dropPending topic)
      pure ()
    else
      pure ()

def runSubscribeLoop (args : SubscribeLoop) (bound : Nat) : Delivery Unit := do
  act (.subscribe args.topic args.session args.tx args.peer args.protocol args.version args.host)
  let started ← act .now
  let watcher ← act (.watch args.topic)
  let semaphore ← act (.newSemaphore (max args.config.consumerPrefetch 1))
  let left ← rounds args watcher semaphore bound [] started
  forAll
    (fun ready => do
      release ready.1
      act (.dropPermit semaphore))
    left
  act (.join semaphore)
  act (.unsubscribe args.topic args.session)
  lastSubscriberLeft args.topic

/-! ## Delivery tasks -/

/-- The verdict of a delivery task so far. -/
structure Verdict where
  allOk : Bool
  lastError : String
  deriving DecidableEq, Repr

/-- What one decision makes of it. -/
def Verdict.after (verdict : Verdict) : AckOutcome → Verdict
  | .shutdown => ⟨false, "broker shutting down"⟩
  | .decided decision =>
    if decision.success then
      verdict
    else
      ⟨false, if decision.error = "" then "nack" else decision.error⟩
  | .gone => { verdict with allOk := false }
  | .elapsed => { verdict with allOk := false }

/-- Await the decisions one after the other, until the task is cancelled. -/
def collect (task : DeliveryTask) : List AckWait → Verdict → Delivery Verdict
  | [], verdict => pure verdict
  | wait :: rest, verdict => do
      let outcome ← act (.awaitAck wait.rx task.token task.deadline)
      if ← act (.isCancelled task.token) then
        forAll (fun other => act (.dropReceiver other.rx)) rest
        pure (verdict.after outcome)
      else
        collect task rest (verdict.after outcome)

/-- `QueueWriter::delivered`. -/
def writerDelivered (id lease : String) : Delivery (Except Unit Bool) := do
  match ← act (.queueDelivered id lease) with
  | none => pure (.error ())
  | some response => act (.awaitDelivered response)

/-- What a delivery task does with its verdict. -/
def conclude (task : DeliveryTask) (verdict : Verdict) : Delivery Unit := do
  if ← act (.isCancelled task.token) then
    pure ()
  else if verdict.allOk then
    let _ ← writerDelivered task.message.id task.message.lease
    pure ()
  else
    let _ ←
      database (.failed task.message.id task.message.lease verdict.lastError task.maxAttempts)
    pure ()

/-- A delivery task of the subscribe loop. -/
def deliver (task : DeliveryTask) : Delivery Unit := do
  act (.begin task)
  let verdict ← collect task task.waits ⟨true, "ack timeout or subscriber gone"⟩
  forAll (fun wait => act (.cancelAck wait.lease)) task.waits
  conclude task verdict
  act (.dropPermit task.owner)
  act (.finish task)

/-! ## Acknowledgements -/

def ackMessage (ack : AckMessageRequest) : Delivery (Except String Bool) := do
  if ack.messageId = "" ∨ ack.lease = "" then
    pure (.error "message_id and lease are required")
  else
    let accepted ← act (.complete ack.messageId ack.lease ack.success ack.error)
    pure (.ok accepted)

/-- The loop of `QueueService::ack_messages`. -/
def ackEach : List AckMessageRequest → Nat → Delivery (Except String Nat)
  | [], accepted => pure (.ok accepted)
  | ack :: rest, accepted => do
      if ack.messageId = "" ∨ ack.lease = "" then
        pure (.error "message_id and lease are required")
      else
        let completed ← act (.complete ack.messageId ack.lease ack.success ack.error)
        ackEach rest (if completed then InflightAcks.saturatingSucc accepted else accepted)

def ackMessages (batch : List AckMessageRequest) : Delivery (Except String Nat) :=
  if batch.isEmpty then
    pure (.error "acknowledgements are required")
  else
    ackEach batch 0

/-- On its own the program answers, and does to the acknowledgements in flight, what
`effect` says, and it does nothing else. -/
def Applies (validJson : String → Bool) {Result : Type} (program : Delivery Result)
    (effect : InflightAcks → Result × InflightAcks) : Prop :=
  ∀ state value final,
    Ran (fun state request answer reached =>
        ∃ choice, DeliveryState.perform validJson choice state request = some (answer, reached))
      program state value final ↔
      value = (effect state.inflight).1 ∧
        final = { state with inflight := (effect state.inflight).2 }

section Applies

variable {validJson : String → Bool}

theorem applies_complete {Result : Type} {ack : AckMessageRequest}
    {continuation : Bool → Delivery Result} (effect : Bool → InflightAcks → Result × InflightAcks)
    (onward : ∀ accepted, Applies validJson (continuation accepted) (effect accepted)) :
    Applies validJson
      (act (.complete ack.messageId ack.lease ack.success ack.error) >>= continuation)
      fun acks =>
        let completed := acks.complete ack.messageId ack.lease ack.success ack.error
        effect completed.1 completed.2 := by
  intro state value final
  rw [ran_bind]
  constructor
  · rintro ⟨_, _, asked, later⟩
    obtain ⟨_, ⟨⟩⟩ := ran_ask.mp asked
    exact (onward _ _ _ _).mp later
  · exact fun same => ⟨_, _, ran_ask.mpr ⟨{}, rfl⟩, (onward _ _ _ _).mpr same⟩

theorem applies_ackMessage (ack : AckMessageRequest) :
    Applies validJson (ackMessage ack) (InflightAcks.ackMessage ack) := by
  intro state value final
  rw [ackMessage, InflightAcks.ackMessage]
  split
  · exact Iff.rfl
  · refine applies_complete (fun accepted acks => (.ok accepted, acks)) ?_ state value final
    exact fun _ _ _ _ => Iff.rfl

theorem applies_ackEach : ∀ (batch : List AckMessageRequest) (accepted : Nat),
    Applies validJson (ackEach batch accepted) (InflightAcks.ackEach batch accepted)
  | [], _ => fun _ _ _ => Iff.rfl
  | ack :: rest, accepted => by
    intro state value final
    rw [ackEach, InflightAcks.ackEach]
    split
    · exact Iff.rfl
    · exact applies_complete _ (fun _ => applies_ackEach rest _) state value final

theorem applies_ackMessages (batch : List AckMessageRequest) :
    Applies validJson (ackMessages batch) (InflightAcks.ackMessages batch) := by
  intro state value final
  rw [ackMessages, InflightAcks.ackMessages]
  split
  · exact Iff.rfl
  · exact applies_ackEach batch 0 state value final

end Applies

/-- A `PUBACK` for a message that was sent under a packet identifier, or the write
of a message that was sent without one. -/
def pubAck (messageId lease : String) : Delivery Bool :=
  act (.complete messageId lease true "")

structure ConsumeAckBody where
  messageId : String
  lease : String
  success : Bool
  error : String
  deriving DecidableEq, Repr

/-- `str::trim`. -/
@[irreducible]
def trimmed (text : String) : String :=
  String.ofList (trim text.toList)

/-- `consume_ack`: whether the claim was ended, or the status of the failure. -/
def consumeAck (body : ConsumeAckBody) (maxAttempts : Int) :
    Delivery (Except Nat Bool) := do
  let messageId := trimmed body.messageId
  let lease := trimmed body.lease
  if messageId = "" ∨ lease = "" then
    pure (.error 400)
  else if body.success then
    match ← writerDelivered messageId lease with
    | .error _ => pure (.error 500)
    | .ok accepted => pure (if accepted then .ok true else .error 409)
  else
    let error :=
      if trimmed body.error = "" then "consumer rejected message" else trimmed body.error
    match ← database (.failed messageId lease error maxAttempts) with
    | .ok (.flag true) => pure (.ok true)
    | .ok _ => pure (.error 409)
    | .error _ => pure (.error 500)

/-! ## The queue writer -/

def respondEach (commands : List DeliveredCommand) : Outcome → Delivery Unit
  | .ok (.flags results) =>
    forAll (fun entry => act (.respond entry.1.caller (.ok entry.2))) (commands.zip results)
  | _ => forAll (fun command => act (.respond command.caller (.error ()))) commands

/-- Store the messages of a batch, however often that takes. -/
def persist (inputs : List EnqueueInput) : Nat → Delivery (List (String × Bool))
  | 0 => do
      let blocked ← act .never
      nomatch blocked
  | more + 1 => do
      match ← database (.enqueueBatch inputs) with
      | .ok (.stored results) => pure results
      | _ => persist inputs more

def notifyFresh (inputs : List EnqueueInput) (results : List (String × Bool)) :
    Delivery Unit :=
  forAll (fun entry => if entry.2.2 then pure () else notify entry.1.topic) (inputs.zip results)

/-- The enqueues of one batch of `run_writer`. -/
def writeEnqueues (inputs : List EnqueueInput) (bound : Nat) : Delivery Unit := do
  if inputs.isEmpty then
    pure ()
  else
    let results ← persist inputs bound
    notifyFresh inputs results

/-- One batch of `run_writer`: its enqueues, then its acknowledgements. -/
def write (inputs : List EnqueueInput) (bound : Nat) : Delivery Unit := do
  let commands ← act .takeCommands
  writeEnqueues inputs bound
  if commands.isEmpty then
    pure ()
  else
    let outcome ←
      database (.deliveredBatch (commands.map fun command => (command.id, command.lease)))
    respondEach commands outcome

/-! ## The downstream dispatcher -/

/-- What the dispatcher does with the response to a claimed message. -/
def afterPost (config : DeliveryConfig) (message : ClaimedMessage) :
    Except String Unit → Delivery Unit
  | .ok _ => do
      let _ ← database (.delivered message.id message.lease)
      pure ()
  | .error error => do
      let _ ←
        database (.failed message.id message.lease error config.maxDeliveryAttempts)
      pure ()

/-- The topics the dispatcher leaves alone. -/
def skipped : Delivery (List String) := do
  let live ← act .subscribedTopics
  match ← database .ephemeralTopics with
  | .ok (.topics ephemeral) =>
    pure <| ephemeral.foldl (fun skip topic => if topic ∈ skip then skip else skip ++ [topic]) live
  | _ => pure live

/-- `dispatch_loop`, where a downstream address is configured. -/
def dispatchLoop (config : DeliveryConfig) (token : Nat) : Nat → Delivery Unit
  | 0 => do
      let blocked ← act .never
      nomatch blocked
  | more + 1 => do
      if ← act (.sleep token) then
        let skip ← skipped
        match ← database (.claimNextExcluding config.visibility skip) with
        | .ok (.claimed [message]) => do
            if ← act (.covers message.topic) then
              let _ ← database (.release message.id message.lease)
              dispatchLoop config token more
            else
              match ← act (.post token message) with
              | none => pure ()
              | some response => do
                  afterPost config message response
                  dispatchLoop config token more
        | _ => dispatchLoop config token more
      else
        pure ()

/-! ## The intake -/

inductive Ingested where
  | queued (messageId : String) (duplicate : Bool)
  | dropped (messageId : String)
  deriving DecidableEq, Repr

/-- Send an ephemeral message to each stream; how many took it. -/
def fanout (outgoing : SatwayMessage) : List (String × StreamSender) → Delivery Nat
  | [] => pure 0
  | target :: rest => do
      let sent ← act (.send target.2 outgoing (outgoing.messageId, ""))
      let later ← fanout outgoing rest
      pure (if sent then later + 1 else later)

/-- `accept_dropped`, as the intake answers it. -/
def acceptDropped (topic : String) : Delivery (Except Unit Ingested) := do
  match ← database (.acceptDropped topic) with
  | .ok (.text messageId) => pure (.ok (.dropped messageId))
  | _ => pure (.error ())

def fanoutEphemeral (topic : String) (payload : List UInt8) (attributes : String)
    (delivery : DeliveryMode) : Delivery (Except Unit Ingested) := do
  let matching ← act (.matchingSenders topic)
  let senders := if delivery = .single then matching.take 1 else matching
  if senders.isEmpty then
    acceptDropped topic
  else
    let messageId ← act .newLease
    let createdAt ← act .now
    let sent ←
      fanout
        { messageId := messageId
          topic := topic
          payload := payload
          attributes := attributes
          createdAt := createdAt
          lease := "" }
        senders
    if sent = 0 then
      acceptDropped topic
    else
      match ← database (.recordLiveFanout topic) with
      | .ok _ => pure (.ok (.queued messageId false))
      | .error _ => pure (.error ())

def ingest (idempotencyKey : Option String) (topic : String) (payload : List UInt8)
    (attributes : String) : Delivery (Except Unit Ingested) := do
  let found ← settingsOf <$> database (.topicConfig topic)
  let settings := found.getD (.implicit topic)
  if settings.persistence = .ephemeral then
    fanoutEphemeral topic payload attributes settings.delivery
  else
    match ← act (.admitMessage idempotencyKey topic payload attributes) with
    | .ok (messageId, duplicate) => pure (.ok (.queued messageId duplicate))
    | .error _ => pure (.error ())

/-- `PublishMessageBody`; the payload is what the JSON value is stored as. -/
structure PublishMessageBody where
  topic : String
  payload : List UInt8
  attributes : String
  idempotencyKey : Option String
  deriving DecidableEq, Repr

/-- `publish_message`: what was accepted, or the status of the failure. -/
def publishMessage (body : PublishMessageBody) : Delivery (Except Nat Ingested) := do
  let topic := trimmed body.topic
  if topic = "" ∨ body.payload = [] then
    pure (.error 400)
  else
    let idempotencyKey := (body.idempotencyKey.map trimmed).filter (· ≠ "")
    match settingsOf (← database (.topicConfig topic)) with
    | none => pure (.error 500)
    | some settings =>
      if settings.persistence = .persistent then
        match ←
          database (.enqueue idempotencyKey topic body.payload body.attributes) with
        | .ok (.stored [(messageId, duplicate)]) => do
            if duplicate then pure () else notify topic
            pure (.ok (.queued messageId duplicate))
        | _ => pure (.error 500)
      else
        match ← ingest idempotencyKey topic body.payload body.attributes with
        | .ok ingested => pure (.ok ingested)
        | .error _ => pure (.error 500)

end Delivery

/-! ## The component -/

/-- A call of the delivery side.  `background` is any other call of `Database`, and
`engine` one step of a call of `Database` that has been started. -/
inductive DeliveryCall where
  | subscribe (args : SubscribeLoop) (bound : Nat)
  | deliver (task : DeliveryTask)
  | ackMessage (ack : AckMessageRequest)
  | ackMessages (batch : List AckMessageRequest)
  | pubAck (messageId lease : String)
  | consumeAck (body : Delivery.ConsumeAckBody) (maxAttempts : Int)
  | write (inputs : List EnqueueInput) (bound : Nat)
  | dispatch (config : DeliveryConfig) (token bound : Nat)
  | ingest (idempotencyKey : Option String) (topic : String) (payload : List UInt8)
      (attributes : String)
  | publishMessage (body : Delivery.PublishMessageBody)
  | cancel (token : Nat)
  | background (call : Call)
  | engine (thread : Nat)
  deriving DecidableEq, Repr

/-- What a call of the delivery side returns. -/
inductive DeliveryResult where
  | unit
  | acked (result : Except String Bool)
  | ackedAll (result : Except String Nat)
  | completed (accepted : Bool)
  | consumed (result : Except Nat Bool)
  | ingested (result : Except Unit Delivery.Ingested)
  | published (result : Except Nat Delivery.Ingested)

/-- Another call of `Database`.  Those that acknowledge messages are made by the
calls above only. -/
def DeliveryCall.startBackground (call : Call) : Delivery DeliveryResult :=
  if call.acknowledged.isEmpty then do
    let _ ← Delivery.act (.start call)
    pure .unit
  else do
    let blocked ← Delivery.act .never
    nomatch blocked

/-- The program of a call. -/
def DeliveryCall.body : DeliveryCall → Delivery DeliveryResult
  | .subscribe args bound => (fun _ => .unit) <$> Delivery.runSubscribeLoop args bound
  | .deliver task => (fun _ => .unit) <$> Delivery.deliver task
  | .ackMessage ack => .acked <$> Delivery.ackMessage ack
  | .ackMessages batch => .ackedAll <$> Delivery.ackMessages batch
  | .pubAck messageId lease => .completed <$> Delivery.pubAck messageId lease
  | .consumeAck body maxAttempts => .consumed <$> Delivery.consumeAck body maxAttempts
  | .write inputs bound => (fun _ => .unit) <$> Delivery.write inputs bound
  | .dispatch config token bound => (fun _ => .unit) <$> Delivery.dispatchLoop config token bound
  | .ingest idempotencyKey topic payload attributes =>
    .ingested <$> Delivery.ingest idempotencyKey topic payload attributes
  | .publishMessage body => .published <$> Delivery.publishMessage body
  | .cancel token => (fun _ => .unit) <$> Delivery.act (.cancel token)
  | .background call => startBackground call
  | .engine thread => (fun _ => .unit) <$> Delivery.act (.advance thread)

/-- The delivery side over its shared state. -/
def deliveryComponent (validJson : String → Bool) :
    Component DeliveryCall DeliveryAction DeliveryAction.Reply DeliveryState
      DeliveryChoice DeliveryResult where
  perform := DeliveryState.perform validJson
  crash := DeliveryState.crash
  program := DeliveryCall.body

end CanglingBroker
