import CanglingBroker.Delivery.Calls

/-!
# The vocabulary of deliveries

Which kinds of actions each program of the delivery side performs.  What holds because a
call never performs some kind of action follows from here, without another look at the
programs.
-/

namespace CanglingBroker

open Foundation
open Program (Asks asks_ask asks_bind asks_done)

/-- A kind of actions.  Calls of `Database` are told apart by what they do to messages, and
actions that only look at something are of one kind. -/
inductive DeliveryKind where
  | store
  | claim
  | acknowledge
  | giveBack
  | call
  | await
  | advance
  | newLease
  | register
  | complete
  | cancelAck
  | dropReceiver
  | awaitAck
  | look
  | cancel
  | newSemaphore
  | acquire
  | dropPermit
  | spawn
  | join
  | begin
  | finish
  | queueDelivered
  | awaitDelivered
  | takeCommands
  | respond
  | sleep
  | watch
  | awaitChange
  | raise
  | table
  | send
  | post
  | admitMessage
  | never
  deriving DecidableEq, Repr

/-- What a call of `Database` does to messages. -/
def Call.kind : Call → DeliveryKind
  | .enqueue .. => .store
  | .enqueueBatch _ => .store
  | .claimBatchForTopic .. => .claim
  | .claimBatchForFilter .. => .claim
  | .claimNextExcluding .. => .claim
  | .delivered .. => .acknowledge
  | .deliveredBatch _ => .acknowledge
  | .release .. => .giveBack
  | .failed .. => .giveBack
  | .dropClaimed .. => .giveBack
  | _ => .call

def DeliveryAction.kind : DeliveryAction → DeliveryKind
  | .start call => call.kind
  | .await _ => .await
  | .advance _ => .advance
  | .newLease => .newLease
  | .register .. => .register
  | .complete .. => .complete
  | .cancelAck _ => .cancelAck
  | .dropReceiver _ => .dropReceiver
  | .awaitAck .. => .awaitAck
  | .now => .look
  | .isCancelled _ => .look
  | .cancel _ => .cancel
  | .newSemaphore _ => .newSemaphore
  | .acquire .. => .acquire
  | .tryAcquire _ => .acquire
  | .dropPermit _ => .dropPermit
  | .spawn _ => .spawn
  | .join _ => .join
  | .begin _ => .begin
  | .finish _ => .finish
  | .queueDelivered .. => .queueDelivered
  | .awaitDelivered _ => .awaitDelivered
  | .takeCommands => .takeCommands
  | .respond .. => .respond
  | .sleep _ => .sleep
  | .watch _ => .watch
  | .awaitChange .. => .awaitChange
  | .raise _ => .raise
  | .subscribe .. => .table
  | .unsubscribe .. => .table
  | .isClosed _ => .look
  | .send .. => .send
  | .matchingSenders _ => .look
  | .covers _ => .look
  | .subscribedTopics => .look
  | .post .. => .post
  | .admitMessage .. => .admitMessage
  | .never => .never

namespace Delivery

variable {Result Later Item : Type} {kinds : List DeliveryKind}

/-- Every action of the program is of one of these kinds. -/
def Speaks (kinds : List DeliveryKind) (program : Delivery Result) : Prop :=
  Asks (fun request => request.kind ∈ kinds) program

variable {program : Delivery Result} (args : SubscribeLoop)

theorem Speaks.mono {more : List DeliveryKind}
    (speaks : Speaks kinds program) (listed : ∀ kind ∈ kinds, kind ∈ more) : Speaks more program :=
  Asks.mono speaks fun request => listed request.kind

theorem speaks_done (value : Result) : Speaks kinds (Program.done value) :=
  asks_done value

theorem speaks_act {action : DeliveryAction} (listed : kinds.contains action.kind = true) :
    Speaks kinds (act action) :=
  asks_ask (List.contains_iff_mem.mp listed)

theorem speaks_bind {continuation : Result → Delivery Later}
    (first : Speaks kinds program) (later : ∀ value, Speaks kinds (continuation value)) :
    Speaks kinds (program >>= continuation) :=
  asks_bind first later

theorem speaks_map (convert : Result → Later)
    (first : Speaks kinds program) :
    Speaks kinds (convert <$> program) :=
  asks_bind first fun _ => asks_done _

theorem speaks_forAll {body : Item → Delivery Unit} (each : ∀ item, Speaks kinds (body item)) :
    ∀ items, Speaks kinds (forAll body items)
  | [] => trivial
  | item :: rest => speaks_bind (each item) fun _ => speaks_forAll each rest

theorem speaks_database {call : Call} (listed : kinds.contains call.kind = true)
    (waits : kinds.contains .await = true) : Speaks kinds (database call) :=
  speaks_bind (speaks_act listed) fun _ => speaks_act waits

theorem speaks_notify (topic : String) : Speaks [.raise] (notify topic) :=
  speaks_bind (speaks_act rfl) fun _ => speaks_act rfl

theorem speaks_release (message : ClaimedMessage) :
    Speaks [.giveBack, .await, .raise] (release message) := by
  refine speaks_bind (speaks_database rfl rfl) fun outcome => ?_
  split
  · exact (speaks_notify _).mono (by decide)
  · exact speaks_done _

/-! ## The subscribe loop -/

theorem speaks_dropPermits (semaphore count : Nat) :
    Speaks [.dropPermit] (dropPermits semaphore count) :=
  speaks_forAll (fun _ => speaks_act rfl) _

theorem speaks_reserve (semaphore : Nat) : ∀ more, Speaks [.acquire] (reserve semaphore more)
  | 0 => trivial
  | more + 1 => by
    refine speaks_bind (speaks_act rfl) fun taken => ?_
    split
    · exact speaks_bind (speaks_reserve semaphore more) fun _ => speaks_done _
    · exact speaks_done _

theorem speaks_heartbeat (last : Nat) :
    Speaks [.look, .call, .await] (heartbeat args last) := by
  unfold heartbeat
  split
  · exact speaks_done _
  · refine speaks_bind (speaks_act rfl) fun now => ?_
    split
    · exact speaks_bind (speaks_database rfl rfl) fun _ => speaks_act rfl
    · exact speaks_done _

theorem speaks_sendEach (message : ClaimedMessage) : ∀ targets,
    Speaks [.newLease, .register, .send, .cancelAck, .dropReceiver] (sendEach message targets)
  | [] => trivial
  | target :: rest => by
    refine speaks_bind (speaks_act rfl) fun lease => ?_
    refine speaks_bind (speaks_act rfl) fun rx => ?_
    refine speaks_bind (speaks_act rfl) fun sent => ?_
    split
    · exact speaks_bind (speaks_sendEach message rest) fun _ => speaks_done _
    · refine speaks_bind (speaks_act rfl) fun _ => ?_
      exact speaks_bind (speaks_act rfl) fun _ => speaks_sendEach message rest

theorem speaks_targets (topic : String) (broadcast : Bool) :
    Speaks [.look] (targets args topic broadcast) := by
  unfold targets
  split
  · refine speaks_bind (speaks_act rfl) fun senders => ?_
    split
    · exact speaks_done _
    · exact speaks_done _
  · exact speaks_done _

theorem speaks_settle (semaphore : Nat) (ready : Ready) (ephemeral : Bool) (waits : List AckWait) :
    Speaks [.cancelAck, .acknowledge, .giveBack, .await, .look, .dropPermit, .spawn]
      (settle args semaphore ready ephemeral waits) := by
  unfold settle
  split
  · refine speaks_bind (speaks_forAll (fun _ => speaks_act rfl) _) fun _ => ?_
    refine speaks_bind (speaks_database rfl rfl) fun _ => ?_
    exact speaks_bind (speaks_act rfl) fun _ => speaks_done _
  · split
    · refine speaks_bind (speaks_database ?_ rfl) fun _ => ?_
      · split
        · rfl
        · rfl
      · refine speaks_bind (speaks_act rfl) fun _ => ?_
        exact speaks_bind (speaks_act rfl) fun _ => speaks_done _
    · exact speaks_bind (speaks_act rfl) fun _ => speaks_done _

theorem speaks_settings (topic : String) :
    Speaks [.call, .await] (settingsOf <$> database (.topicConfig topic)) :=
  speaks_map _ (speaks_database rfl rfl)

theorem speaks_dispatch (semaphore : Nat) (ready : Ready) : Speaks
    [.look, .call, .await, .raise, .newLease, .register, .send, .cancelAck, .dropReceiver,
      .acknowledge, .giveBack, .dropPermit, .spawn]
    (dispatch args semaphore ready) := by
  refine speaks_bind (speaks_act rfl) fun now => ?_
  split
  · refine speaks_bind ((speaks_release _).mono (by decide)) fun _ => ?_
    exact speaks_bind (speaks_act rfl) fun _ => speaks_done _
  · refine speaks_bind ((speaks_settings _).mono (by decide)) fun _ => ?_
    refine speaks_bind ((speaks_targets _ _ _).mono (by decide)) fun _ => ?_
    exact speaks_bind ((speaks_sendEach _ _).mono (by decide)) fun _ =>
      (speaks_settle _ _ _ _ _).mono (by decide)

theorem speaks_refill (watcher semaphore last : Nat) :
    Speaks [.acquire, .look, .claim, .await, .sleep, .dropPermit, .call, .awaitChange]
      (refill args watcher semaphore last) := by
  refine speaks_bind (speaks_act rfl) fun taken => ?_
  split
  · refine speaks_bind ((speaks_reserve _ _).mono (by decide)) fun more => ?_
    dsimp only
    refine speaks_bind (speaks_act rfl) fun claimedAt => ?_
    refine speaks_bind (speaks_database rfl rfl) fun outcome => ?_
    split
    · refine speaks_bind (speaks_act rfl) fun slept => ?_
      exact speaks_bind ((speaks_dropPermits _ _).mono (by decide)) fun _ => speaks_done _
    · refine speaks_bind ((speaks_dropPermits _ _).mono (by decide)) fun _ => ?_
      split
      · refine speaks_bind ((speaks_heartbeat _ _).mono (by decide)) fun touched => ?_
        refine speaks_bind (speaks_act rfl) fun wake => ?_
        split
        · exact speaks_done _
        · exact speaks_done _
        · exact speaks_done _
      · exact speaks_done _
  · exact speaks_done _

def loopKinds : List DeliveryKind :=
  [.table, .look, .watch, .newSemaphore, .join, .never, .acquire, .claim, .await, .sleep,
    .dropPermit, .call, .awaitChange, .raise, .newLease, .register, .send, .cancelAck,
    .dropReceiver, .acknowledge, .giveBack, .spawn]

theorem speaks_rounds (watcher semaphore : Nat) :
    ∀ more ready last, Speaks loopKinds (rounds args watcher semaphore more ready last)
  | 0, _, _ => speaks_bind (speaks_act rfl) fun blocked => nomatch blocked
  | more + 1, ready, last => by
    have one : ∀ (entry : Ready) (rest : List Ready),
        Speaks loopKinds (do
          if ← dispatch args semaphore entry then
            rounds args watcher semaphore more rest last
          else
            pure rest) := by
      intro entry rest
      refine speaks_bind ((speaks_dispatch _ _ _).mono (by decide)) fun goes => ?_
      split
      · exact speaks_rounds watcher semaphore more rest last
      · exact speaks_done _
    refine speaks_bind (speaks_act rfl) fun cancelled => ?_
    split
    · exact speaks_done _
    · refine speaks_bind (speaks_act rfl) fun closed => ?_
      split
      · exact speaks_done _
      · cases ready with
        | cons entry rest => exact one entry rest
        | nil =>
          refine speaks_bind ((speaks_refill _ _ _ _).mono (by decide)) fun refilled => ?_
          match refilled with
          | .stop => exact speaks_done _
          | .again touched => exact speaks_rounds watcher semaphore more [] touched
          | .filled [] => exact speaks_done _
          | .filled (entry :: rest) => exact one entry rest

theorem speaks_lastSubscriberLeft (topic : String) :
    Speaks [.look, .call, .await] (lastSubscriberLeft topic) := by
  unfold lastSubscriberLeft
  split
  · exact speaks_done _
  · refine speaks_bind (speaks_act rfl) fun covered => ?_
    split
    · exact speaks_done _
    · refine speaks_bind ((speaks_settings _).mono (by decide)) fun _ => ?_
      split
      · exact speaks_bind (speaks_database rfl rfl) fun _ => speaks_done _
      · exact speaks_done _

theorem speaks_runSubscribeLoop (bound : Nat) :
    Speaks loopKinds (runSubscribeLoop args bound) := by
  refine speaks_bind (speaks_act rfl) fun _ => ?_
  refine speaks_bind (speaks_act rfl) fun started => ?_
  refine speaks_bind (speaks_act rfl) fun watcher => ?_
  refine speaks_bind (speaks_act rfl) fun semaphore => ?_
  refine speaks_bind (speaks_rounds args watcher semaphore bound [] started) fun left => ?_
  refine speaks_bind (speaks_forAll (fun ready => ?_) _) fun _ => ?_
  · exact speaks_bind ((speaks_release _).mono (by decide)) fun _ => speaks_act rfl
  · refine speaks_bind (speaks_act rfl) fun _ => ?_
    refine speaks_bind (speaks_act rfl) fun _ => ?_
    exact (speaks_lastSubscriberLeft _).mono (by decide)

/-! ## Delivery tasks -/

theorem speaks_collect (task : DeliveryTask) : ∀ waits verdict,
    Speaks [.awaitAck, .look, .dropReceiver] (collect task waits verdict)
  | [], _ => trivial
  | wait :: rest, verdict => by
    refine speaks_bind (speaks_act rfl) fun outcome => ?_
    refine speaks_bind (speaks_act rfl) fun cancelled => ?_
    split
    · exact
        speaks_bind (speaks_forAll (fun _ => speaks_act rfl) _) fun _ =>
          speaks_done _
    · exact speaks_collect task rest _

theorem speaks_writerDelivered (id lease : String) :
    Speaks [.queueDelivered, .awaitDelivered] (writerDelivered id lease) := by
  refine speaks_bind (speaks_act rfl) fun response => ?_
  split
  · exact speaks_done _
  · exact speaks_act rfl

theorem speaks_conclude (task : DeliveryTask) (verdict : Verdict) :
    Speaks [.look, .queueDelivered, .awaitDelivered, .giveBack, .await]
      (conclude task verdict) := by
  refine speaks_bind (speaks_act rfl) fun cancelled => ?_
  split
  · exact speaks_done _
  · split
    · exact speaks_bind ((speaks_writerDelivered _ _).mono (by decide)) fun _ => speaks_done _
    · exact speaks_bind (speaks_database rfl rfl) fun _ => speaks_done _

theorem speaks_deliver (task : DeliveryTask) : Speaks
    [.begin, .awaitAck, .look, .dropReceiver, .cancelAck, .queueDelivered, .awaitDelivered,
      .giveBack, .await, .dropPermit, .finish]
    (deliver task) := by
  refine speaks_bind (speaks_act rfl) fun _ => ?_
  refine speaks_bind ((speaks_collect _ _ _).mono (by decide)) fun _ => ?_
  refine speaks_bind (speaks_forAll (fun _ => speaks_act rfl) _) fun _ => ?_
  refine speaks_bind ((speaks_conclude _ _).mono (by decide)) fun _ => ?_
  exact speaks_bind (speaks_act rfl) fun _ => speaks_act rfl

/-! ## Acknowledgements -/

theorem speaks_ackMessage (ack : AckMessageRequest) : Speaks [.complete] (ackMessage ack) := by
  unfold ackMessage
  split
  · exact speaks_done _
  · exact speaks_bind (speaks_act rfl) fun _ => speaks_done _

theorem speaks_ackEach : ∀ batch accepted, Speaks [.complete] (ackEach batch accepted)
  | [], _ => trivial
  | ack :: rest, accepted => by
    unfold ackEach
    split
    · exact speaks_done _
    · exact speaks_bind (speaks_act rfl) fun _ => speaks_ackEach rest _

theorem speaks_ackMessages (batch : List AckMessageRequest) :
    Speaks [.complete] (ackMessages batch) := by
  unfold ackMessages
  split
  · exact speaks_done _
  · exact speaks_ackEach _ _

theorem speaks_consumeAck (body : ConsumeAckBody) (maxAttempts : Int) :
    Speaks [.queueDelivered, .awaitDelivered, .giveBack, .await] (consumeAck body maxAttempts) := by
  unfold consumeAck
  dsimp only
  split
  · exact speaks_done _
  · split
    · refine speaks_bind ((speaks_writerDelivered _ _).mono (by decide)) fun result => ?_
      split
      · exact speaks_done _
      · exact speaks_done _
    · refine speaks_bind (speaks_database rfl rfl) fun outcome => ?_
      split
      · exact speaks_done _
      · exact speaks_done _
      · exact speaks_done _

/-! ## The queue writer and the downstream dispatcher -/

theorem speaks_respondEach (commands : List DeliveredCommand) (outcome : Outcome) :
    Speaks [.respond] (respondEach commands outcome) := by
  unfold respondEach
  split
  · exact speaks_forAll (fun _ => speaks_act rfl) _
  · exact speaks_forAll (fun _ => speaks_act rfl) _

theorem speaks_never {program : Empty → Delivery Result} (listed : kinds.contains .never = true) :
    Speaks kinds (act .never >>= program) :=
  speaks_bind (speaks_act listed) fun blocked => nomatch blocked

theorem speaks_persist (inputs : List EnqueueInput) :
    ∀ bound, Speaks [.never, .store, .await] (persist inputs bound)
  | 0 => speaks_never rfl
  | more + 1 => by
    refine speaks_bind (speaks_database rfl rfl) fun outcome => ?_
    split
    · exact speaks_done _
    · exact speaks_persist inputs more

theorem speaks_notifyFresh (inputs : List EnqueueInput) (results : List (String × Bool)) :
    Speaks [.raise] (notifyFresh inputs results) := by
  refine speaks_forAll (fun entry => ?_) _
  split
  · exact speaks_done _
  · exact speaks_notify _

theorem speaks_write (inputs : List EnqueueInput) (bound : Nat) :
    Speaks [.takeCommands, .never, .store, .await, .raise, .acknowledge, .respond]
      (write inputs bound) := by
  refine speaks_bind (speaks_act rfl) fun commands => ?_
  have enqueues : Speaks [.takeCommands, .never, .store, .await, .raise, .acknowledge, .respond]
      (writeEnqueues inputs bound) := by
    unfold writeEnqueues
    split
    · exact speaks_done _
    · exact
        speaks_bind ((speaks_persist _ _).mono (by decide)) fun _ =>
          (speaks_notifyFresh _ _).mono (by decide)
  refine speaks_bind enqueues fun _ => ?_
  split
  · exact speaks_done _
  · exact
      speaks_bind (speaks_database rfl rfl) fun _ =>
        (speaks_respondEach _ _).mono (by decide)

theorem speaks_afterPost (config : DeliveryConfig) (message : ClaimedMessage)
    (response : Except String Unit) :
    Speaks [.acknowledge, .giveBack, .await] (afterPost config message response) := by
  cases response with
  | ok | error => exact speaks_bind (speaks_database rfl rfl) fun _ => trivial

theorem speaks_skipped : Speaks [.look, .call, .await] skipped := by
  refine speaks_bind (speaks_act rfl) fun live => ?_
  refine speaks_bind (speaks_database rfl rfl) fun outcome => ?_
  split
  · exact speaks_done _
  · exact speaks_done _

theorem speaks_dispatchLoop (config : DeliveryConfig) (token : Nat) : ∀ bound,
    Speaks [.never, .sleep, .look, .call, .await, .claim, .giveBack, .post, .acknowledge]
      (dispatchLoop config token bound)
  | 0 => speaks_never rfl
  | more + 1 => by
    refine speaks_bind (speaks_act rfl) fun slept => ?_
    split
    · refine speaks_bind (speaks_skipped.mono (by decide)) fun skip => ?_
      refine speaks_bind (speaks_database rfl rfl) fun outcome => ?_
      split
      · refine speaks_bind (speaks_act rfl) fun covered => ?_
        split
        · refine speaks_bind (speaks_database rfl rfl) fun _ => ?_
          exact speaks_dispatchLoop config token more
        · refine speaks_bind (speaks_act rfl) fun response => ?_
          split
          · exact speaks_done _
          · refine speaks_bind ((speaks_afterPost _ _ _).mono (by decide)) fun _ => ?_
            exact speaks_dispatchLoop config token more
      · exact speaks_dispatchLoop config token more
    · exact speaks_done _

/-! ## The intake -/

theorem speaks_fanout (outgoing : SatwayMessage) :
    ∀ targets, Speaks [.send] (fanout outgoing targets)
  | [] => trivial
  | target :: rest => by
    refine speaks_bind (speaks_act rfl) fun sent => ?_
    exact speaks_bind (speaks_fanout outgoing rest) fun _ => speaks_done _

theorem speaks_acceptDropped (topic : String) : Speaks [.call, .await] (acceptDropped topic) := by
  refine speaks_bind (speaks_database rfl rfl) fun outcome => ?_
  split
  · exact speaks_done _
  · exact speaks_done _

theorem speaks_fanoutEphemeral (topic : String) (payload : List UInt8) (attributes : String)
    (delivery : DeliveryMode) :
    Speaks [.look, .newLease, .send, .call, .await]
      (fanoutEphemeral topic payload attributes delivery) := by
  refine speaks_bind (speaks_act rfl) fun matching => ?_
  dsimp only
  generalize (if delivery = .single then matching.take 1 else matching) = senders
  split
  · exact (speaks_acceptDropped _).mono (by decide)
  · refine speaks_bind (speaks_act rfl) fun messageId => ?_
    refine speaks_bind (speaks_act rfl) fun createdAt => ?_
    refine speaks_bind ((speaks_fanout _ _).mono (by decide)) fun sent => ?_
    split
    · exact (speaks_acceptDropped _).mono (by decide)
    · refine speaks_bind (speaks_database rfl rfl) fun outcome => ?_
      split
      · exact speaks_done _
      · exact speaks_done _

theorem speaks_ingest (idempotencyKey : Option String) (topic : String) (payload : List UInt8)
    (attributes : String) :
    Speaks [.look, .newLease, .send, .call, .await, .admitMessage]
      (ingest idempotencyKey topic payload attributes) := by
  refine speaks_bind ((speaks_settings _).mono (by decide)) fun found => ?_
  dsimp only
  split
  · exact (speaks_fanoutEphemeral _ _ _ _).mono (by decide)
  · refine speaks_bind (speaks_act rfl) fun outcome => ?_
    split
    · exact speaks_done _
    · exact speaks_done _

theorem speaks_publishMessage (body : PublishMessageBody) :
    Speaks [.look, .newLease, .send, .call, .await, .admitMessage, .store, .raise]
      (publishMessage body) := by
  unfold publishMessage
  dsimp only
  split
  · exact speaks_done _
  · refine speaks_bind (speaks_database rfl rfl) fun outcome => ?_
    split
    · exact speaks_done _
    · split
      · refine speaks_bind (speaks_database rfl rfl) fun outcome => ?_
        split
        · split
          · exact speaks_done _
          · exact speaks_bind ((speaks_notify _).mono (by decide)) fun _ => speaks_done _
        · exact speaks_done _
      · refine speaks_bind ((speaks_ingest _ _ _ _).mono (by decide)) fun outcome => ?_
        split
        · exact speaks_done _
        · exact speaks_done _

end Delivery

namespace DeliveryCall

open Delivery

/-- The kinds of actions of a call other than a subscribe loop or a delivery task. -/
def otherKinds : List DeliveryKind :=
  [.store, .claim, .acknowledge, .giveBack, .call, .await, .advance, .newLease, .complete,
    .look, .cancel, .queueDelivered, .awaitDelivered, .takeCommands, .respond, .sleep, .raise,
    .send, .post, .admitMessage, .never]

theorem speaks_startBackground (call : Call) : Speaks otherKinds (startBackground call) := by
  unfold startBackground
  split
  · refine speaks_bind (speaks_act ?_) fun _ => speaks_done _
    cases call <;> rfl
  · exact speaks_never rfl

theorem speaks_body (call : DeliveryCall) (notLoop : ∀ args bound, call ≠ .subscribe args bound)
    (notTask : ∀ task, call ≠ .deliver task) : Speaks otherKinds call.body := by
  cases call with
  | subscribe args bound => exact absurd rfl (notLoop args bound)
  | deliver task => exact absurd rfl (notTask task)
  | ackMessage ack => exact speaks_map _ ((speaks_ackMessage ack).mono (by decide))
  | ackMessages batch => exact speaks_map _ ((speaks_ackMessages batch).mono (by decide))
  | pubAck | cancel | engine => exact speaks_map _ (speaks_act rfl)
  | consumeAck body maxAttempts =>
    exact speaks_map _ ((speaks_consumeAck body maxAttempts).mono (by decide))
  | write inputs bound => exact speaks_map _ ((speaks_write inputs bound).mono (by decide))
  | dispatch config token bound =>
    exact speaks_map _ ((speaks_dispatchLoop config token bound).mono (by decide))
  | ingest idempotencyKey topic payload attributes =>
    exact speaks_map _ ((speaks_ingest idempotencyKey topic payload attributes).mono (by decide))
  | publishMessage body => exact speaks_map _ ((speaks_publishMessage body).mono (by decide))
  | background call => exact speaks_startBackground call

end DeliveryCall

end CanglingBroker
