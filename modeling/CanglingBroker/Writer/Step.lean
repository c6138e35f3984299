import CanglingBroker.Writer.State

/-!
# One step of the queue writer

An event is the stretch of code from one await to the next.  `offer`, `accept`, `refuse` and
`cancel` are of a call that sends; `receive`, `close`, `persist` and `commit` are the
stretches of `run_writer`; `store` is `Database::enqueue`.
-/

namespace CanglingBroker

/-- What the scheduler can do with the queue writer. -/
inductive WriterEvent where
  | publish (key : Option String) (topic : String) (payload : List UInt8) (attributes uuid : String)
  | acknowledge (id lease : String)
  | shutdown
  | accept (call : Nat)
  | refuse (call : Nat)
  | cancel (call : Nat)
  | conclude (call : Nat)
  | hangUp
  | receive (shard : ShardIndex)
  | close (shard : ShardIndex)
  | persist (shard : ShardIndex) (times : List Nat) (choice : Choice)
  | commit (shard : ShardIndex) (choice : Choice)
  | store (key : Option String) (topic : String) (payload : List UInt8)
      (attributes uuid : String) (now : Nat) (fails : Bool)
  | other (request : Action) (choice : Choice)

namespace WriterShard

/-- The task returns; what is left on the channel is dropped with it. -/
def exit (current : WriterShard) : WriterShard :=
  { current with queue := [], phase := .exited }

def finish (current : WriterShard) (stop : Option Nat) : WriterShard :=
  match stop with
  | none => { current with phase := .receiving }
  | some _ => current.exit

/-- After the messages of a batch, its acknowledgements. -/
def turnToAcks (current : WriterShard) (acks : List DeliveredCommand)
    (stop : Option Nat) : WriterShard :=
  if acks.isEmpty then
    current.finish stop
  else
    { current with
      phase :=
        .acknowledging acks stop (Db.deliveredBatch (acks.map fun ack => (ack.id, ack.lease))).run }

/-- Split a closed batch into messages and acknowledgements. -/
def split (current : WriterShard) (batch : List WriteCommand) (stop : Option Nat) : WriterShard :=
  { current with
    phase :=
      .persisting (batch.filterMap WriteCommand.input?)
        (batch.filterMap WriteCommand.delivered?) stop }

/-- The task takes the next command off its channel, in either of its two
places. -/
def receive (limits : Limits) (senders : Bool) (current : WriterShard) :
    Option WriterShard :=
  match current.phase, current.queue with
  | .receiving, [] => if senders then none else some current.exit
  | .receiving, .shutdown _ :: _ => some current.exit
  | .receiving, command :: rest =>
    some { current with queue := rest, phase := .collecting [command] }
  | .collecting batch, .shutdown caller :: rest =>
    if batch.length < limits.batchSize then
      some ({ current with queue := rest }.split batch (some caller))
    else
      none
  | .collecting batch, command :: rest =>
    if batch.length < limits.batchSize then
      some { current with queue := rest, phase := .collecting (batch ++ [command]) }
    else
      none
  | _, _ => none

/-- The batch is full, its deadline is reached, or no sender is left. -/
def close (current : WriterShard) : Option WriterShard :=
  match current.phase with
  | .collecting batch => some (current.split batch none)
  | _ => none

/-- The calls whose response the shard still owes. -/
def owes (current : WriterShard) : List Nat :=
  let commands :=
    match current.phase with
    | .collecting batch => batch.filterMap WriteCommand.delivered?
    | .persisting _ acks _ => acks
    | .acknowledging acks _ _ => acks
    | _ => []
  (commands ++ current.queue.filterMap WriteCommand.delivered?).map DeliveredCommand.caller

end WriterShard

def Action.storesMessages : Action → Bool
  | .sql (.enqueue ..) | .sql (.copy ..) => true
  | _ => false

namespace Writer

/-- `QueueWriter::enqueue` up to the send, once the identifier is drawn. -/
def offer (writer : Writer) (input : EnqueueInput) : Option Writer :=
  let shard := topicShard input.topic
  let current := writer.shards shard
  match input.idempotencyKey with
  | none => some (writer.await (.publish input))
  | some key =>
    match current.recent.get key with
    | some id => some (writer.receipt ⟨input.topic, some key, id, true, false⟩)
    | none =>
      match current.recent.insert key input.id with
      | none => none
      | some recent =>
        some
          ((writer.setShard shard { current with recent := recent }).await (.publish input))

def message (key : Option String) (topic : String) (payload : List UInt8)
    (attributes uuid : String) : EnqueueInput where
  id := newMessageId topic uuid
  idempotencyKey := key.filter (· ≠ "")
  topic := topic
  payload := payload
  attributes := attributes

def draw (writer : Writer) (uuid : String) : Option Writer :=
  match perform { uuid := uuid } writer.db (.access .newUuid) with
  | none => none
  | some (_, db) => some { writer with db := db }

/-- The channel has a place for what the call waits to send. -/
def accept (limits : Limits) (writer : Writer) (call : Nat) : Option Writer :=
  match writer.calls call with
  | some (.publish input) =>
    match writer.send limits (topicShard input.topic) (.enqueue input) with
    | none => none
    | some sent =>
      some
        (((sent.setCall call none).keep (topicShard input.topic) input.id).receipt
          ⟨input.topic, input.idempotencyKey, input.id, false, false⟩)
  | some (.deliver id lease) =>
    match
      writer.send limits ((messageIdShard id).getD 0) (.delivered ⟨call, id, lease⟩) with
    | none => none
    | some sent => some (sent.setCall call (some (.response id lease)))
  | some (.shutdown (shard :: rest) waits) =>
    match writer.send limits shard (.shutdown call) with
    | none => none
    | some sent => some (sent.setCall call (some (.shutdown rest (shard :: waits))))
  | _ => none

/-- Forget the key of a publish that is refused. -/
def forget (writer : Writer) (input : EnqueueInput) : Writer :=
  match input.idempotencyKey with
  | none => writer
  | some key =>
    let shard := topicShard input.topic
    let current := writer.shards shard
    writer.setShard shard { current with recent := current.recent.remove key }

/-- The channel is closed: a publish fails, a shutdown goes on. -/
def refuse (writer : Writer) (call : Nat) : Option Writer :=
  match writer.calls call with
  | some (.publish input) =>
    if (writer.shards (topicShard input.topic)).closed then
      some ((writer.forget input).setCall call none)
    else
      none
  | some (.deliver id _) =>
    if (writer.shards ((messageIdShard id).getD 0)).closed then
      some (writer.setCall call none)
    else
      none
  | some (.shutdown (shard :: rest) waits) =>
    if (writer.shards shard).closed then
      some (writer.setCall call (some (.shutdown rest waits)))
    else
      none
  | _ => none

def cancel (writer : Writer) (call : Nat) : Option Writer :=
  match writer.calls call with
  | none => none
  | some _ => some (writer.setCall call none)

/-- A call whose responses have come, or cannot come any more, returns. -/
def conclude (writer : Writer) (call : Nat) : Option Writer :=
  match writer.calls call with
  | some (.response _ _) =>
    if ∀ shard, call ∉ (writer.shards shard).owes then
      some (writer.setCall call none)
    else
      none
  | some (.shutdown [] waits) =>
    if ∀ shard ∈ waits, (writer.shards shard).closed = true then
      some (writer.setCall call none)
    else
      none
  | _ => none

/-- One attempt to store the messages of a batch; a failed one is repeated. -/
def persist (writer : Writer) (shard : ShardIndex) (times : List Nat)
    (choice : Choice) : Option Writer :=
  let current := writer.shards shard
  match current.phase with
  | .persisting [] acks stop => some (writer.setShard shard (current.turnToAcks acks stop))
  | .persisting enqueues acks stop =>
    if times.length = enqueues.length then
      match
        perform choice writer.db (.sql (.enqueue (.shard shard) (enqueues.zip times))) with
      | none => none
      | some (.error _, db) => some { writer with db := db }
      | some (.ok _, db) =>
        some
          { writer.setShard shard (current.turnToAcks acks stop) with
            db := db
            committed := enqueues.map (·.id) ++ writer.committed }
    else
      none
  | _ => none

/-- One action of the batch's acknowledgements. -/
def commit (writer : Writer) (shard : ShardIndex) (choice : Choice) :
    Option Writer :=
  let current := writer.shards shard
  match current.phase with
  | .acknowledging _ stop (.done _) => some (writer.setShard shard (current.finish stop))
  | .acknowledging acks stop (.perform request next) =>
    match perform choice writer.db request with
    | none => none
    | some (answer, db) =>
      some
        { writer.setShard shard
            { current with phase := .acknowledging acks stop (next answer) } with
          db := db }
  | _ => none

/-- `Database::enqueue`: the message is stored before the call returns. -/
def store (writer : Writer) (input : EnqueueInput) (now : Nat) (fails : Bool) :
    Option Writer :=
  let shard := topicShard input.topic
  match
    perform { fails := fails } writer.db (.sql (.enqueue (.shard shard) [(input, now)])) with
  | none => none
  | some (.error _, db) => some { writer with db := db }
  | some (.ok results, db) =>
    match results.getLast? with
    | none => none
    | some (id, duplicate) =>
      let stored :=
        { writer with
          db := db
          committed :=
            if duplicate then writer.committed else id :: writer.committed }
      some
        ((if duplicate then stored else stored.keep shard id).receipt
          ⟨input.topic, input.idempotencyKey, id, duplicate, true⟩)

/-- Any other action on the database. -/
def other (writer : Writer) (request : Action) (choice : Choice) :
    Option Writer :=
  if request.storesMessages then
    none
  else
    match perform choice writer.db request with
    | none => none
    | some (_, db) => some { writer with db := db }

def step (limits : Limits) (writer : Writer) : WriterEvent → Option Writer
  | .publish key topic payload attributes uuid =>
    if writer.senders then
      match writer.draw uuid with
      | none => none
      | some drawn => drawn.offer (message key topic payload attributes uuid)
    else
      none
  | .acknowledge id lease =>
    if writer.senders then some (writer.await (.deliver id lease)) else none
  | .shutdown =>
    if writer.senders then
      some (writer.await (.shutdown allShards []))
    else
      none
  | .accept call => writer.accept limits call
  | .refuse call => writer.refuse call
  | .cancel call => writer.cancel call
  | .conclude call => writer.conclude call
  | .hangUp =>
    if ∀ call ∈ List.range writer.fresh, writer.calls call = none then
      some { writer with senders := false }
    else
      none
  | .receive shard =>
    match (writer.shards shard).receive limits writer.senders with
    | none => none
    | some current => some (writer.setShard shard current)
  | .close shard =>
    match (writer.shards shard).close with
    | none => none
    | some current => some (writer.setShard shard current)
  | .persist shard times choice => writer.persist shard times choice
  | .commit shard choice => writer.commit shard choice
  | .store key topic payload attributes uuid now fails =>
    match writer.draw uuid with
    | none => none
    | some drawn => drawn.store (message key topic payload attributes uuid) now fails
  | .other request choice => writer.other request choice

def replay (limits : Limits) (writer : Writer) (events : List WriterEvent) :
    Option Writer :=
  Foundation.run (step limits) writer events

def Quiescent (writer : Writer) : Prop :=
  ∀ call, writer.calls call = none

end Writer

end CanglingBroker
