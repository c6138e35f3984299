import CanglingBroker.Database.Trace
import CanglingBroker.Delivery.Inflight
import CanglingBroker.Subscribers
import CanglingBroker.Writer.Notifications
import CanglingBroker.Writer.State

/-!
# The state that deliveries share

Subscribe loops, delivery tasks, acknowledgements, the downstream dispatcher and the queue
writer are programs over the actions below.  A call of `Database` is started and awaited, so
`DeliveryState` holds the pool of database calls.  What streams, clock and network answer is
the scheduler's choice.
-/

namespace CanglingBroker

open Foundation

/-- `SatwayMessage`: what a stream is sent. -/
structure SatwayMessage where
  messageId : String
  topic : String
  payload : List UInt8
  attributes : String
  createdAt : Nat
  lease : String
  deriving DecidableEq, Repr

/-- A stream that has taken a message: the lease it was sent, and the channel on
which its decision is awaited. -/
structure AckWait where
  stream : StreamSender
  lease : String
  rx : Nat
  deriving DecidableEq, Repr

/-- What a delivery task of a subscribe loop is spawned with; `owner` names the
loop. -/
structure DeliveryTask where
  owner : Nat
  message : ClaimedMessage
  waits : List AckWait
  deadline : Nat
  token : Nat
  maxAttempts : Int
  deriving DecidableEq, Repr

inductive TaskState where
  | spawned
  | running
  | ended
  deriving DecidableEq, Repr

/-- How the wait for a decision ended. -/
inductive AckOutcome where
  | shutdown
  | decided (decision : AckDecision)
  | gone
  | elapsed
  deriving DecidableEq, Repr

/-- How the wait for fresh messages ended. -/
inductive Wake where
  | shutdown
  | changed
  | closed
  | elapsed
  deriving DecidableEq, Repr

structure DeliveryState where
  broker : Broker
  inflight : InflightAcks
  leases : List String
  clock : Nat
  cancelled : List Nat
  semaphores : List Nat
  tasks : List (DeliveryTask × TaskState)
  commands : List DeliveredCommand
  responses : List (Option (Except Unit Bool))
  notifications : QueueNotifications
  watchers : List (Option WatchReceiver)

/-- One atomic action of a delivery.  `send` names the claim it is made for. -/
inductive DeliveryAction where
  | start (call : Call)
  | await (thread : Nat)
  | advance (thread : Nat)
  | newLease
  | register (messageId lease : String)
  | complete (messageId lease : String) (success : Bool) (error : String)
  | cancelAck (lease : String)
  | dropReceiver (rx : Nat)
  | awaitAck (rx token deadline : Nat)
  | now
  | isCancelled (token : Nat)
  | cancel (token : Nat)
  | newSemaphore (permits : Nat)
  | acquire (semaphore token : Nat)
  | tryAcquire (semaphore : Nat)
  | dropPermit (semaphore : Nat)
  | spawn (task : DeliveryTask)
  | join (owner : Nat)
  | begin (task : DeliveryTask)
  | finish (task : DeliveryTask)
  | queueDelivered (id lease : String)
  | awaitDelivered (response : Nat)
  | takeCommands
  | respond (response : Nat) (result : Except Unit Bool)
  | sleep (token : Nat)
  | watch (topic : String)
  | awaitChange (watcher token : Nat)
  | raise (channel : Option String)
  | subscribe (topic session : String) (tx : StreamSender) (peer protocol version host : String)
  | unsubscribe (topic session : String)
  | isClosed (stream : StreamSender)
  | send (stream : StreamSender) (outgoing : SatwayMessage) (claim : String × String)
  | matchingSenders (topic : String)
  | covers (topic : String)
  | subscribedTopics
  | post (token : Nat) (message : ClaimedMessage)
  | admitMessage (idempotencyKey : Option String) (topic : String)
      (payload : List UInt8) (attributes : String)
  | never
  deriving DecidableEq

namespace DeliveryAction

/-- What an action is answered. -/
abbrev Reply : DeliveryAction → Type
  | .start _ => Nat
  | .await _ => Outcome
  | .newLease => String
  | .register .. => Nat
  | .complete .. => Bool
  | .awaitAck .. => AckOutcome
  | .now => Nat
  | .isCancelled _ => Bool
  | .newSemaphore _ => Nat
  | .acquire .. => Bool
  | .tryAcquire _ => Bool
  | .queueDelivered .. => Option Nat
  | .awaitDelivered _ => Except Unit Bool
  | .takeCommands => List DeliveredCommand
  | .sleep _ => Bool
  | .watch _ => Nat
  | .awaitChange .. => Wake
  | .isClosed _ => Bool
  | .send .. => Bool
  | .matchingSenders _ => List (String × StreamSender)
  | .covers _ => Bool
  | .subscribedTopics => List String
  | .post .. => Option (Except String Unit)
  | .admitMessage .. => Except String (String × Bool)
  | .never => Empty
  | _ => Unit

instance : ∀ request : DeliveryAction, DecidableEq request.Reply := by
  intro request
  cases request <;> infer_instance

end DeliveryAction

/-- What the scheduler decides about one action. -/
structure DeliveryChoice where
  database : Choice := {}
  clock : Nat := 0
  uuid : String := ""
  flag : Bool := false
  ack : AckOutcome := .elapsed
  wake : Wake := .elapsed
  senders : List (String × StreamSender) := []
  topics : List String := []
  taken : List DeliveredCommand := []
  posted : Option (Except String Unit) := none
  stopped : Bool := false
  admitted : Except String (String × Bool) := .error ""

namespace DeliveryState

/-- Nothing is delivered yet. -/
def start (initial : Database) : DeliveryState where
  broker := Pool.start initial
  inflight := .empty
  leases := []
  clock := 0
  cancelled := []
  semaphores := []
  tasks := []
  commands := []
  responses := []
  notifications := .empty
  watchers := []

def tick (choice : DeliveryChoice) (state : DeliveryState) : DeliveryState :=
  { state with clock := max state.clock choice.clock }

/-- A pending acknowledgement still holds the sender of the channel. -/
def hasSender (state : DeliveryState) (rx : Nat) : Bool :=
  state.inflight.pending.entries.any fun entry => entry.2.tx = rx

/-- The wait of a delivery task for one decision: `select!` between the
cancellation and the decision with its deadline.  A decision that is there is
taken even when the deadline has passed; a wait that ends otherwise drops its
receiver. -/
def awaitAck (rx token deadline : Nat) (choice : DeliveryChoice) (state : DeliveryState) :
    Option (AckOutcome × DeliveryState) :=
  let dropped := { state with inflight := state.inflight.dropReceiver rx }
  match choice.ack with
  | .shutdown => if token ∈ state.cancelled then some (.shutdown, dropped) else none
  | .decided decision =>
    if state.inflight.receivers[rx]? = some (.decided decision) then
      some (.decided decision, state)
    else
      none
  | .gone =>
    if state.inflight.receivers[rx]? = some .waiting ∧ state.hasSender rx = false then
      some (.gone, dropped)
    else
      none
  | .elapsed =>
    if state.inflight.receivers[rx]? = some .waiting ∧ deadline ≤ (state.tick choice).clock then
      some (.elapsed, dropped.tick choice)
    else
      none

/-- The wait of a subscribe loop for fresh messages: `select!` between the
cancellation, a change and a timer.  The loop has the writer, and with it the senders,
so its channel is never closed. -/
def awaitChange (watcher token : Nat) (choice : DeliveryChoice) (state : DeliveryState) :
    Option (Wake × DeliveryState) :=
  match choice.wake with
  | .shutdown => if token ∈ state.cancelled then some (.shutdown, state) else none
  | .changed =>
    match state.watchers[watcher]? with
    | some (some receiver) =>
      if receiver.hasChanged state.notifications then
        some (.changed,
          { state with
            watchers := state.watchers.set watcher (some (receiver.look state.notifications)) })
      else
        none
    | _ => none
  | .closed => none
  | .elapsed => some (.elapsed, state)

def joined (state : DeliveryState) (owner : Nat) : Bool :=
  state.tasks.all fun entry => entry.1.owner ≠ owner || entry.2 = .ended

/-- Move the first task found in one state to another. -/
def moveTask (task : DeliveryTask) (source target : TaskState) :
    List (DeliveryTask × TaskState) → Option (List (DeliveryTask × TaskState))
  | [] => none
  | entry :: rest =>
    if entry = (task, source) then
      some ((task, target) :: rest)
    else
      (moveTask task source target rest).map (entry :: ·)

/-- The effect of one action; undefined where the action has to wait, or where the
scheduler's choice is not one it leaves open. -/
def perform (validJson : String → Bool) (choice : DeliveryChoice) (state : DeliveryState) :
    (request : DeliveryAction) → Option (request.Reply × DeliveryState)
  | .start call =>
    (Pool.step (databaseComponent validJson) state.broker (.spawn call)).map
      fun broker => (state.broker.fresh, { state with broker := broker })
  | .await thread =>
    (state.broker.finished.find? fun returned => returned.thread = thread).map
      fun returned => (returned.result, state)
  | .advance thread =>
    (Pool.step (databaseComponent validJson) state.broker (.advance thread choice.database)).map
      fun broker => ((), { state with broker := broker })
  | .newLease =>
    if choice.uuid ∈ state.leases then
      none
    else
      some (choice.uuid, { state with leases := choice.uuid :: state.leases })
  | .register messageId lease =>
    let registered := state.inflight.register messageId lease
    some (registered.1, { state with inflight := registered.2 })
  | .complete messageId lease success error =>
    let completed := state.inflight.complete messageId lease success error
    some (completed.1, { state with inflight := completed.2 })
  | .cancelAck lease => some ((), { state with inflight := state.inflight.cancel lease })
  | .dropReceiver rx => some ((), { state with inflight := state.inflight.dropReceiver rx })
  | .awaitAck rx token deadline => state.awaitAck rx token deadline choice
  | .now => some ((state.tick choice).clock, state.tick choice)
  | .isCancelled token => some (decide (token ∈ state.cancelled), state)
  | .cancel token => some ((), { state with cancelled := token :: state.cancelled })
  | .newSemaphore permits =>
    some (state.semaphores.length, { state with semaphores := state.semaphores ++ [permits] })
  | .acquire semaphore token =>
    if choice.flag then
      match state.semaphores[semaphore]? with
      | some (free + 1) =>
        some (true, { state with semaphores := state.semaphores.set semaphore free })
      | _ => none
    else if token ∈ state.cancelled then
      some (false, state)
    else
      none
  | .tryAcquire semaphore =>
    match state.semaphores[semaphore]? with
    | some (free + 1) =>
      some (true, { state with semaphores := state.semaphores.set semaphore free })
    | _ => some (false, state)
  | .dropPermit semaphore =>
    some ((),
      { state with
        semaphores :=
          state.semaphores.set semaphore (((state.semaphores[semaphore]?).getD 0) + 1) })
  | .spawn task => some ((), { state with tasks := state.tasks ++ [(task, .spawned)] })
  | .join owner => if state.joined owner then some ((), state) else none
  | .begin task =>
    (moveTask task .spawned .running state.tasks).map
      fun tasks => ((), { state with tasks := tasks })
  | .finish task =>
    (moveTask task .running .ended state.tasks).map fun tasks => ((), { state with tasks := tasks })
  | .queueDelivered id lease =>
    if choice.stopped then
      some (none, state)
    else
      some (some state.responses.length,
        { state with
          commands := state.commands ++ [⟨state.responses.length, id, lease⟩]
          responses := state.responses ++ [none] })
  | .awaitDelivered response =>
    if choice.stopped then
      some (.error (), state)
    else
      match state.responses[response]? with
      | some (some result) => some (result, state)
      | _ => none
  | .takeCommands =>
    if choice.taken.Nodup ∧ ∀ command ∈ choice.taken, command ∈ state.commands then
      some (choice.taken,
        { state with
          commands := state.commands.filter fun command => command ∉ choice.taken })
    else
      none
  | .respond response result =>
    some ((), { state with responses := state.responses.set response (some result) })
  | .sleep token =>
    if choice.flag then
      some (true, state)
    else if token ∈ state.cancelled then
      some (false, state)
    else
      none
  | .watch topic =>
    let subscribed := state.notifications.subscribe topic
    some (state.watchers.length,
      { state with
        notifications := subscribed.2
        watchers := state.watchers ++ [some ⟨channelOf topic, subscribed.1⟩] })
  | .awaitChange watcher token => state.awaitChange watcher token choice
  | .raise channel => some ((), { state with notifications := state.notifications.raise channel })
  | .subscribe .. => some ((), state)
  | .unsubscribe .. => some ((), state)
  | .isClosed _ => some (choice.flag, state)
  | .send .. => some (choice.flag, state)
  | .matchingSenders _ => some (choice.senders, state)
  | .covers _ => some (choice.flag, state)
  | .subscribedTopics => some (choice.topics, state)
  | .post token _ =>
    match choice.posted with
    | none => if token ∈ state.cancelled then some (none, state) else none
    | some result => some (some result, state)
  | .admitMessage .. => some (choice.admitted, state)
  | .never => none

/-- A crash loses what is in memory; channels and tasks of the old process are
gone. -/
def crash (state : DeliveryState) : DeliveryState :=
  { state with
    broker :=
      { state.broker with
        shared := state.broker.shared.restart
        threads := fun _ => none }
    inflight :=
      { pending := ∅
        receivers := state.inflight.receivers.map fun _ => .dropped }
    cancelled := []
    tasks := state.tasks.map fun entry => (entry.1, .ended)
    commands := []
    notifications := .empty
    watchers := state.watchers.map fun _ => none }

end DeliveryState

end CanglingBroker
