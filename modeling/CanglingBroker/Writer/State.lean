import CanglingBroker.Database.Calls
import CanglingBroker.Writer.RecentIds

/-!
# The queue writer

`QueueWriter` puts publishes on one bounded channel per shard; a task per shard
(`run_writer`) takes commands off its channel and stores them in batches.  The scheduler
decides in the event which task moves, what the clock reads and which identifier is drawn.
Three fields are logs that no task reads.
-/

namespace CanglingBroker

open Foundation

/-- What `QueueWriter::start` makes of its configuration. -/
structure Limits where
  queueSize : Nat
  recentSize : Nat
  batchSize : Nat
  deriving DecidableEq, Repr

def Limits.perShard (queueSize batchSize : Nat) : Limits :=
  let perShardQueue := max ((queueSize + 15) / 16) 1
  { queueSize := perShardQueue
    recentSize := max (min (perShardQueue * 4) (2 ^ 64 - 1)) 64
    batchSize := max batchSize 1 }

/-- `DeliveredCommand`, with the call that waits for the response. -/
structure DeliveredCommand where
  caller : Nat
  id : String
  lease : String
  deriving DecidableEq, Repr

inductive WriteCommand where
  | enqueue (input : EnqueueInput)
  | delivered (command : DeliveredCommand)
  | shutdown (caller : Nat)
  deriving DecidableEq, Repr

namespace WriteCommand

/-- The message of an `Enqueue` command. -/
def input? : WriteCommand → Option EnqueueInput
  | .enqueue input => some input
  | _ => none

@[simp]
theorem input?_enqueue (input : EnqueueInput) : (WriteCommand.enqueue input).input? = some input :=
  rfl

@[simp]
theorem input?_delivered (command : DeliveredCommand) :
    (WriteCommand.delivered command).input? = none :=
  rfl

@[simp]
theorem input?_shutdown (caller : Nat) : (WriteCommand.shutdown caller).input? = none :=
  rfl

/-- The acknowledgement of a `Delivered` command. -/
def delivered? : WriteCommand → Option DeliveredCommand
  | .delivered command => some command
  | _ => none

end WriteCommand

/-- Where `run_writer` is.  `stop` is the `Shutdown` that closed the batch. -/
inductive WriterPhase where
  | receiving
  | collecting (batch : List WriteCommand)
  | persisting (enqueues : List EnqueueInput) (acks : List DeliveredCommand) (stop : Option Nat)
  | acknowledging (acks : List DeliveredCommand) (stop : Option Nat)
      (program : Program Action Reply (Except DbError (List Bool)))
  | exited

def WriterPhase.batch : WriterPhase → List EnqueueInput
  | .collecting commands => commands.filterMap WriteCommand.input?
  | .persisting enqueues _ _ => enqueues
  | _ => []

/-- The batch was closed by a `Shutdown`. -/
def WriterPhase.Stopping : WriterPhase → Prop
  | .persisting _ _ stop => stop.isSome = true
  | .acknowledging _ stop _ => stop.isSome = true
  | _ => False

structure WriterShard where
  recent : RecentIds
  queue : List WriteCommand
  phase : WriterPhase

def WriterShard.queued (shard : WriterShard) : List EnqueueInput :=
  shard.queue.filterMap WriteCommand.input?

/-- The task has returned and its end of the channel is gone. -/
def WriterShard.closed (shard : WriterShard) : Bool :=
  match shard.phase with
  | .exited => true
  | _ => false

/-- A call that waits: for a place on a channel, or for a response. -/
inductive Waiting where
  | publish (input : EnqueueInput)
  | deliver (id lease : String)
  | response (id lease : String)
  | shutdown (remaining waits : List ShardIndex)
  deriving DecidableEq, Repr

/-- What a returned publish was told.  `durable` tells `Database::enqueue` from
`QueueWriter::enqueue`. -/
structure Receipt where
  topic : String
  key : Option String
  id : String
  duplicate : Bool
  durable : Bool
  deriving DecidableEq, Repr

/-- The queue writer, the database and the calls in progress. -/
structure Writer where
  db : Database
  shards : ShardIndex → WriterShard
  calls : Nat → Option Waiting
  fresh : Nat
  senders : Bool
  receipts : List Receipt
  kept : ShardIndex → List String
  committed : List String

/-! ## Starting -/

/-- The rows `recent_idempotency_keys` reads from a shard, oldest first. -/
def NewestKeys (candidates : List MessageRow) (limit : Nat) (picked : List String) : Prop :=
  picked.Nodup ∧ picked.length = min limit candidates.length ∧
    (∀ id ∈ picked, ∃ row ∈ candidates, row.id = id) ∧
    (∀ kept ∈ candidates, ∀ left ∈ candidates,
      kept.id ∈ picked → left.id ∉ picked → left.createdAt ≤ kept.createdAt) ∧
    (arrange picked candidates).Pairwise fun earlier later =>
      earlier.createdAt ≤ later.createdAt

instance (candidates : List MessageRow) (limit : Nat) (picked : List String) :
    Decidable (NewestKeys candidates limit picked) :=
  inferInstanceAs (Decidable (_ ∧ _ ∧ _ ∧ _ ∧ _))

/-- `recent_idempotency_keys` on one shard. -/
def recentIdempotencyKeys (limit : Nat) (table : MessageTable)
    (order : List String) : Option (List (String × String)) :=
  let candidates := table.rows.filter fun row => row.idempotencyKey.any (· ≠ "")
  if NewestKeys candidates (min limit (2 ^ 63 - 1)) order then
    some <| (arrange order candidates).filterMap fun row =>
        row.idempotencyKey.map fun key => (key, row.id)
  else
    none

/-- The keys a shard starts with. -/
def loadRecent (limits : Limits) (db : Database) (order : ShardIndex → List String)
    (shard : ShardIndex) : Option RecentIds :=
  match
    recentIdempotencyKeys limits.recentSize (db.messages (.shard shard)) (order shard) with
  | none => none
  | some entries =>
    entries.foldlM (fun recent entry => recent.insert entry.1 entry.2)
      (RecentIds.new limits.recentSize)

namespace Writer

def start (limits : Limits) (db : Database) (order : ShardIndex → List String) :
    Option Writer :=
  if ∀ shard, (loadRecent limits db order shard).isSome = true then
    some
      { db := db
        shards := fun shard =>
          { recent :=
              (loadRecent limits db order shard).getD (RecentIds.new limits.recentSize)
            queue := []
            phase := .receiving }
        calls := fun _ => none
        fresh := 0
        senders := true
        receipts := []
        kept := fun shard => (db.messages (.shard shard)).rows.map (·.id)
        committed := [] }
  else
    none

def setShard (writer : Writer) (shard : ShardIndex) (value : WriterShard) :
    Writer :=
  { writer with shards := Function.update writer.shards shard value }

def setCall (writer : Writer) (call : Nat) (waiting : Option Waiting) : Writer :=
  { writer with calls := Function.update writer.calls call waiting }

def await (writer : Writer) (waiting : Waiting) : Writer :=
  { writer.setCall writer.fresh (some waiting) with fresh := writer.fresh + 1 }

def receipt (writer : Writer) (receipt : Receipt) : Writer :=
  { writer with receipts := receipt :: writer.receipts }

def keep (writer : Writer) (shard : ShardIndex) (id : String) : Writer :=
  { writer with
    kept := Function.update writer.kept shard (id :: writer.kept shard) }

/-- Put a command on a shard's channel, if the channel takes it. -/
def send (limits : Limits) (writer : Writer) (shard : ShardIndex)
    (command : WriteCommand) : Option Writer :=
  let current := writer.shards shard
  if current.closed = false ∧ current.queue.length < limits.queueSize then
    some (writer.setShard shard { current with queue := current.queue ++ [command] })
  else
    none

end Writer

end CanglingBroker
