import CanglingBroker.Database.State
import CanglingBroker.Foundation.Timestamp

/-!
# The calls of `Database`

Each method is a program over the actions of `Database.State`, in the order the source
performs them.  Reading a stored `attributes` column back is the JSON library's part: the
programs that do it take a predicate for the texts that parse.
-/

namespace CanglingBroker

open Foundation

/-- A call in progress: it performs actions and may fail. -/
abbrev Db : Type → Type := ExceptT DbError (Program Action Reply)

namespace Db

def sql (statement : Sql) : Db statement.Answer :=
  ExceptT.mk (Program.ask (Action.sql statement))

def access (access : Access) : Db access.Answer :=
  ExceptT.lift (Program.ask (Action.access access))

/-! ## Loops -/

/-- Run a call for each element, in order, and collect the results. -/
def forEach {Item Result : Type} (body : Item → Db Result) :
    List Item → Db (List Result)
  | [] => pure []
  | item :: rest => do
      let first ← body item
      let later ← forEach body rest
      pure (first :: later)

/-- Run a call for each element until one returns a value. -/
def firstSome {Item Result : Type} (body : Item → Db (Option Result)) :
    List Item → Db (Option Result)
  | [] => pure none
  | item :: rest => do
      match ← body item with
      | some found => pure (some found)
      | none => firstSome body rest

end Db

def allShards : List ShardIndex := List.finRange messageShards

/-! ## Durations -/

/-- `chrono::Duration::from_std`: at most `i64::MAX` milliseconds. -/
def fromStd (visibility : Nat) : Option Nat :=
  if visibility ≤ (2 ^ 63 - 1) * 10 ^ 6 then some visibility else none

/-- `now + chrono::Duration::from_std(visibility)?`: the sum panics past the last
instant. -/
def visibleAgain (now visibility : Nat) : Except DbError Nat :=
  match fromStd visibility with
  | none => .error .durationOutOfRange
  | some duration =>
    if lastInstant < now + duration then .error .panicked else .ok (now + duration)

/-- The delay before the next attempt, in seconds:
`2_i64.saturating_pow(attempts.min(8) as u32).min(300)`. -/
def retryDelay (attempts : Int) : Nat :=
  let exponent := (min attempts 8 % 2 ^ 32).toNat
  if 63 ≤ exponent then 300 else min (2 ^ exponent) 300

/-- Where `failed` sends a row: the limit is checked against the attempts made
so far. -/
def verdict (attempts maxAttempts : Int) : Status :=
  if attempts ≥ maxAttempts then .failed else .pending

def second : Nat := 10 ^ 9

/-! ## Claiming -/

/-- `ClaimedMessage`; the attributes are the stored JSON text. -/
structure ClaimedMessage where
  id : String
  topic : String
  payload : List UInt8
  attributes : String
  createdAt : Nat
  lease : String
  attempts : Int
  deriving DecidableEq, Repr

namespace ClaimedMessage

/-- The order of a batch: by creation, then by identifier. -/
def before (left right : ClaimedMessage) : Prop :=
  left.createdAt < right.createdAt ∨ (left.createdAt = right.createdAt ∧ left.id ≤ right.id)

instance (left right : ClaimedMessage) : Decidable (left.before right) :=
  inferInstanceAs (Decidable (_ ∨ (_ ∧ _)))

end ClaimedMessage

/-- A claimed row as its consumer gets it. -/
def MessageRow.claimed (row : MessageRow) (lease : String) (attempts : Int) :
    ClaimedMessage where
  id := row.id
  topic := row.topic
  payload := row.payload
  attributes := row.attributes
  createdAt := row.createdAt
  lease := lease
  attempts := attempts

namespace Db

section Claims

variable (validJson : String → Bool)

def claimBatchForTopic (topic : String) (visibility limit : Nat) :
    Db (List ClaimedMessage) := do
  let now ← access .now
  let lease ← access .newUuid
  match visibleAgain now visibility with
  | .error problem => throw problem
  | .ok instant =>
    let rows ←
      sql <| .update (.shard (topicShard topic))
        (.claimBatch lease instant now topic (max 1 (min limit 128)))
    if rows.all fun row => validJson row.attributes then
      pure <| (rows.map fun row => row.claimed lease row.attempts).insertionSort
          ClaimedMessage.before
    else
      throw .attributesJson

/-- One topic of the wildcard sweep: nothing, or a batch that is not empty. -/
def claimFrom (filter : String) (visibility limit : Nat) (topic : String) :
    Db (Option (List ClaimedMessage)) := do
  if filterMatches filter topic then
    let messages ← claimBatchForTopic validJson topic visibility limit
    if messages.isEmpty then pure none else pure (some messages)
  else
    pure none

/-- The topics of one shard, rotated by the sweep counter. -/
def rotated (start : Nat) (topics : List String) : List String :=
  (List.range topics.length).map fun offset =>
    topics.getD ((start / messageShards + offset) % 2 ^ 64 % topics.length) ""

def sweep (start : Nat) : List ShardIndex :=
  (List.range messageShards).map fun offset =>
    Fin.ofNat messageShards ((start + offset) % 2 ^ 64)

def claimBatchForFilter (filter : String) (visibility limit : Nat) :
    Db (List ClaimedMessage) := do
  if !isWildcardFilter filter then
    claimBatchForTopic validJson filter visibility limit
  else
    let start ← access .nextTurn
    let found ←
      firstSome
        (fun shard => do
          let now ← access .now
          let topics ← sql (.readyTopics (.shard shard) now)
          firstSome (claimFrom validJson filter visibility limit) (rotated start topics))
        (sweep start)
    pure (found.getD [])

def finishClaim (shard : ShardIndex) (now visibility : Nat) :
    Option MessageRow → Db (Option ClaimedMessage)
  | none => pure none
  | some row => do
      let lease ← access .newUuid
      let visibleAgain := now + (fromStd visibility).getD (30 * second)
      if lastInstant < visibleAgain then
        throw .panicked
      else
        let changed ←
          sql (.update (.shard shard) (.claimOne lease visibleAgain row.id))
        if changed.length = 0 then
          pure none
        else if validJson row.attributes then
          pure (some (row.claimed lease (row.attempts + 1)))
        else
          throw .attributesJson

def claimNextExcluding (visibility : Nat) (skipTopics : List String) :
    Db (Option ClaimedMessage) := do
  let start ← access .nextTurn
  firstSome
    (fun shard => do
      let now ← access .now
      let row ← sql (.selectReady (.shard shard) now skipTopics)
      finishClaim validJson shard now visibility row)
    (sweep (start % messageShards))

end Claims

/-! ## Ending a claim -/

/-- `shard_index_for_id`: the shard the identifier names, or the first one that
stores it. -/
def shardIndexForId (id : String) : Db (Option ShardIndex) :=
  match messageIdShard id with
  | some shard => pure (some shard)
  | none =>
    firstSome
      (fun shard => do
        let found ← sql (.selectId (.shard shard) id)
        pure (found.map fun _ => shard))
      allShards

def bumpTopicStat (topic : String) (accepted duplicates delivered failed : Int) : Db Unit := do
  let now ← access .now
  sql (.stats (.bump topic accepted duplicates delivered failed now))

def bumpDropped (topic : String) (dropped : Int) : Db Unit := do
  let now ← access .now
  sql (.stats (.bumpDropped topic dropped now))

def release (id lease : String) : Db Bool := do
  match ← shardIndexForId id with
  | none => pure false
  | some shard =>
    let now ← access .now
    let released ← sql (.update (.shard shard) (.release now id lease))
    pure (released.head?.isSome)

def renewClaim (id lease : String) (visibility : Nat) : Db Bool := do
  match ← shardIndexForId id with
  | none => pure false
  | some shard =>
    let now ← access .now
    match visibleAgain now visibility with
    | .error problem => throw problem
    | .ok instant =>
      let renewed ←
        sql (.update (.shard shard) (.renew instant id lease now))
      pure (renewed.length = 1)

def dropClaimed (id lease error : String) : Db Bool := do
  match ← shardIndexForId id with
  | none => pure false
  | some shard =>
    match ← sql (.selectHeld (.shard shard) id lease) with
    | none => pure false
    | some row =>
      let dropped ←
        sql (.update (.shard shard) (.dropClaimed error id lease))
      if dropped.length = 0 then
        pure false
      else
        bumpDropped row.topic 1
        pure true

def failed (id lease error : String) (maxAttempts : Int) : Db Bool := do
  match ← shardIndexForId id with
  | none => pure false
  | some shard =>
    match ← sql (.selectHeld (.shard shard) id lease) with
    | none => pure false
    | some row =>
      let status := verdict row.attempts maxAttempts
      let now ← access .now
      let nextAttemptAt := now + retryDelay row.attempts * second
      let ended ←
        sql <| .update (.shard shard) (.fail status nextAttemptAt error id lease)
      if ended.length = 0 then
        pure false
      else
        if status = .failed then
          bumpTopicStat row.topic 0 0 0 1
        pure true

def tally (counts : Dict String TopicStatsDelta)
    (entry : String × TopicStatsDelta) : Dict String TopicStatsDelta :=
  counts.insert entry.1 (((counts.lookup entry.1).getD {}).add entry.2)

/-- `record_topic_stats` for each counted topic. -/
def recordTallies (entries : List (String × TopicStatsDelta)) : Db Unit := do
  let _ ←
    forEach (fun entry => access (.recordStats entry.1 entry.2))
      ((entries.foldl tally ∅).entries.map fun entry => (entry.1, entry.2))
  pure ()

structure Ack where
  index : Nat
  id : String
  lease : String

/-- The transaction of one shard; a shard without acknowledgements is
skipped. -/
def deliverShard (now : Nat) (shard : ShardIndex) (group : List Ack) :
    Db (List (Ack × String)) :=
  if group.isEmpty then
    pure []
  else do
    let topics ←
      sql <| .deliver (.shard shard) now (group.map fun ack => (ack.id, ack.lease))
    pure <| (group.zip topics).filterMap fun entry =>
        entry.2.map fun topic => (entry.1, topic)

/-- The acknowledgements that were placed in one shard. -/
def groupOf (placed : List (Ack × Option ShardIndex)) (shard : ShardIndex) :
    List Ack :=
  (placed.filter fun entry => entry.2 = some shard).map (·.1)

/-- The acknowledgements of a batch, with their positions. -/
def acksOf (messages : List (String × String)) : List Ack :=
  messages.zipIdx.map fun entry => Ack.mk entry.2 entry.1.1 entry.1.2

def deliveredBatch (messages : List (String × String)) : Db (List Bool) := do
  let acks := acksOf messages
  let shards ← forEach (fun ack => shardIndexForId ack.id) acks
  let now ← access .now
  let ended ←
    forEach
      (fun shard => deliverShard now shard (groupOf (acks.zip shards) shard))
      allShards
  recordTallies (ended.flatten.map fun entry => (entry.2, { delivered := 1 }))
  pure <| acks.map fun ack =>
      ended.flatten.any fun entry => entry.1.index = ack.index

def delivered (id lease : String) : Db Bool := do
  let results ← deliveredBatch [(id, lease)]
  pure (results.getLast?.getD false)

/-! ## Dropping and reclaiming -/

def dropPending (topic : String) : Db Nat := do
  let rows ← sql (.update (.shard (topicShard topic)) (.dropPending topic))
  if rows.length > 0 then
    bumpDropped topic rows.length
  pure rows.length

def reclaimStale : Db Nat := do
  let now ← access .now
  let affected ←
    forEach
      (fun shard => do
        let rows ← sql (.update (.shard shard) (.reclaim now))
        pure rows.length)
      allShards
  pure affected.sum

/-! ## Enqueueing -/

/-- The transaction of one shard of `enqueue_batch`; the items carry their
positions in the batch. -/
def enqueueShard (shard : ShardIndex) (group : List (EnqueueInput × Nat)) :
    Db (List ((EnqueueInput × Nat) × (String × Bool))) :=
  if group.isEmpty then
    pure []
  else do
    let times ← forEach (fun _ => access .now) group
    let results ←
      sql (.enqueue (.shard shard) ((group.map (·.1)).zip times))
    pure (group.zip results)

def enqueueBatch (items : List EnqueueInput) : Db (List (String × Bool)) := do
  let stored ←
    forEach
      (fun shard =>
        enqueueShard shard (items.zipIdx.filter fun item => topicShard item.1.topic = shard))
      allShards
  recordTallies <| stored.flatten.map fun entry =>
      (entry.1.1.topic,
        if entry.2.2 then { duplicates := 1 } else { accepted := 1 })
  pure <| (List.range items.length).filterMap fun index =>
      (stored.flatten.find? fun entry => entry.1.2 = index).map (·.2)

/-- `enqueue`: the message is stored before the call returns. -/
def enqueue (idempotencyKey : Option String) (topic : String)
    (payload : List UInt8) (attributes : String) : Db (String × Bool) := do
  let uuid ← access .newUuid
  let results ←
    enqueueBatch
      [{ id := newMessageId topic uuid
         idempotencyKey := idempotencyKey.filter (· ≠ "")
         topic := topic
         payload := payload
         attributes := attributes }]
  match results.getLast? with
  | some result => pure result
  | none => throw .rowNotFound

/-! ## Topic configuration -/

/-- `topic_config`: look in the cache, else read the row and fill the cache. -/
def topicConfig (topic : String) : Db TopicConfig := do
  match ← access (.cacheGet topic) with
  | some config => pure config
  | none =>
    let row ← sql (.selectStats topic)
    let config := (row.map (·.config topic)).getD (.implicit topic)
    access (.cacheInsert topic config)
    pure config

def noteSubscribedTopic (topic : String) : Db Unit := do
  let persistence :=
    if isWildcardFilter topic then "persistent" else "ephemeral"
  let now ← access .now
  sql (.stats (.noteSubscribed topic persistence now))
  access (.cacheRemove [topic])

def listTopicConfigs : Db (List TopicConfig) :=
  sql .selectConfigs

def ephemeralTopics : Db (List String) :=
  sql .selectEphemeral

/-- `configure_topics`: row, then cache, topic by topic. -/
def configureTopics (configs : List TopicConfig) : Db (List TopicConfig) := do
  let _ ←
    forEach
      (fun config => do
        let now ← access .now
        sql <| .stats (.configure config.topic config.delivery.asStr config.persistence.asStr now)
        access (.cacheInsert config.topic config))
      configs
  listTopicConfigs

/-! ## Counters -/

/-- `flush_topic_stats`: a failed transaction puts the deltas back. -/
def flushTopicStats : Db Nat := do
  let pending ← access .takeStats
  if pending.entries.isEmpty then
    pure 0
  else
    let now ← access .now
    let entries := pending.entries.map fun entry => (entry.1, entry.2)
    tryCatch
      (do
        sql (.stats (.flush entries now))
        pure pending.entries.length)
      (fun problem => do
        access (.restoreStats pending)
        throw problem)

def acceptDropped (topic : String) : Db String := do
  let id ← access .newUuid
  bumpTopicStat topic 1 0 0 0
  bumpDropped topic 1
  pure id

def recordLiveFanout (topic : String) : Db Unit :=
  bumpTopicStat topic 1 0 1 0

def resetTopicStats (filter : String) : Db Unit := do
  let names ← sql .selectTopics
  let _ ←
    forEach
      (fun name =>
        if name = filter ∨ filterMatches filter name then
          sql (.stats (.reset name))
        else
          pure ())
      names
  pure ()

/-! ## Removing messages -/

/-- Remove one shard's rows with a matching topic, row by row. -/
def removeMatching (filter : String) (shard : ShardIndex) : Db Nat := do
  let rows ← sql (.selectAll (.shard shard))
  let removed ←
    forEach
      (fun row =>
        if filterMatches filter row.topic then
          sql (.remove (.shard shard) (.ofId row.id))
        else
          pure 0)
      rows
  pure removed.sum

/-- The deletes of `clear_topic_messages`. -/
def removeFiltered (filter : String) : Db Nat :=
  if !isWildcardFilter filter then
    sql (.remove (.shard (topicShard filter)) (.ofTopic filter))
  else do
    let counts ← forEach (removeMatching filter) allShards
    pure counts.sum

def clearTopicMessages (filter : String) : Db Nat := do
  let _ ← flushTopicStats
  let deleted ← removeFiltered filter
  resetTopicStats filter
  pure deleted

/-- One `DELETE` on every shard. -/
def removeEverywhere (removal : Removal) : Db Nat := do
  let affected ←
    forEach (fun shard => sql (.remove (.shard shard) removal)) allShards
  pure affected.sum

def purgeOlderThan (cutoff : Nat) : Db Nat :=
  removeEverywhere (.olderThan cutoff)

def purgeDeliveredOlderThan (cutoff : Nat) : Db Nat :=
  removeEverywhere (.deliveredBefore cutoff)

/-- Remove the messages of the stale topics, then their catalogue rows in one
transaction, then their cached configurations. -/
def purgeTopics (stale : List String) : Db Nat :=
  if stale.isEmpty then
    pure 0
  else do
    let _ ←
      forEach
        (fun topic => sql (.remove (.shard (topicShard topic)) (.ofTopic topic)))
        stale
    let deleted ← sql (.deleteIdle stale)
    access (.cacheRemove stale)
    pure deleted

def purgeIdleEphemeral (cutoff : Nat) (keep : List String) : Db Nat := do
  let _ ← flushTopicStats
  let idle ← sql (.selectIdle cutoff)
  purgeTopics (idle.filter fun topic => topic ∉ keep)

/-! ## Consumers -/

/-- `register_consumer`; the attributes are the JSON text that is stored. -/
def registerConsumer (consumerId : Option String) (topic name attributes : String) : Db String := do
  let now ← access .now
  match consumerId.filter (· ≠ "") with
  | some id =>
    let updated ← sql (.updateConsumer id topic name attributes now)
    if updated > 0 then
      pure id
    else
      sql (.insertConsumer id topic name attributes now)
      pure id
  | none =>
    let id ← access .newUuid
    sql (.insertConsumer id topic name attributes now)
    pure id

def touchConsumer (id : String) : Db Bool := do
  let now ← access .now
  let touched ← sql (.touchConsumer id now)
  pure (touched > 0)

def unregisterConsumer (id : String) : Db Bool := do
  let removed ← sql (.deleteConsumer id)
  pure (removed > 0)

def purgeStaleConsumers (cutoff : Nat) : Db Nat :=
  sql (.purgeConsumers cutoff)

/-! ## Starting up -/

def migratedId (row : MessageRow) : String :=
  match messageIdShard row.id with
  | some _ => row.id
  | none => prefixedMessageId (topicShard row.topic) row.id

/-- Copy one legacy row and make sure that it is there. -/
def migrateRow (row : MessageRow) : Db Unit := do
  let store := Store.shard (topicShard row.topic)
  sql (.copy store { row with id := migratedId row })
  match ← sql (.selectId store (migratedId row)) with
  | some _ => pure ()
  | none => throw .rowNotFound

def migrateLegacyMessages : Db Unit := do
  match ← sql .selectMigration with
  | some _ => pure ()
  | none =>
    let rows ← sql (.selectAll .control)
    let _ ← forEach migrateRow rows
    sql (.recordMigration rows.length)

/-- `load_queue_depths`: the depths of all shards, added up by topic. -/
def loadQueueDepths : Db (Dict String (Int × Int)) := do
  let depths ← forEach (fun shard => sql (.queueDepths (.shard shard))) allShards
  pure <| depths.flatten.foldl
      (fun total entry =>
        let sofar := (total.lookup entry.1).getD (0, 0)
        total.insert entry.1 (sofar.1 + entry.2.1, sofar.2 + entry.2.2))
      (∅ : Dict String (Int × Int))

/-- `connect`, after the schema statements. -/
def connect : Db Unit := do
  let _ ← sql (.update .control .recover)
  let _ ← forEach (fun shard => sql (.update (.shard shard) .recover)) allShards
  migrateLegacyMessages
  let now ← access .now
  sql (.stats (.touchUnseen now))
  sql (.stats .demoteExact)
  sql (.stats .seedFromMessages)
  sql (.stats .seedFromConsumers)
  let depths ← loadQueueDepths
  sql (.stats .clearDepths)
  let _ ←
    forEach
      (fun entry : (_ : String) × (Int × Int) =>
        sql (.stats (.setDepth entry.1 entry.2.1 entry.2.2 now)))
      depths.entries
  let configs ← sql .selectConfigs
  access (.openCache configs)

end Db

/-! ## The component -/

inductive Call where
  | connect
  | topicConfig (topic : String)
  | noteSubscribedTopic (topic : String)
  | configureTopics (configs : List TopicConfig)
  | listTopicConfigs
  | ephemeralTopics
  | flushTopicStats
  | registerConsumer (consumerId : Option String) (topic name attributes : String)
  | touchConsumer (id : String)
  | unregisterConsumer (id : String)
  | purgeStaleConsumers (cutoff : Nat)
  | enqueue (idempotencyKey : Option String) (topic : String)
      (payload : List UInt8) (attributes : String)
  | enqueueBatch (items : List EnqueueInput)
  | acceptDropped (topic : String)
  | recordLiveFanout (topic : String)
  | claimBatchForTopic (topic : String) (visibility limit : Nat)
  | claimBatchForFilter (filter : String) (visibility limit : Nat)
  | claimNextExcluding (visibility : Nat) (skipTopics : List String)
  | release (id lease : String)
  | renewClaim (id lease : String) (visibility : Nat)
  | delivered (id lease : String)
  | deliveredBatch (messages : List (String × String))
  | failed (id lease error : String) (maxAttempts : Int)
  | dropClaimed (id lease error : String)
  | dropPending (topic : String)
  | reclaimStale
  | clearTopicMessages (filter : String)
  | purgeOlderThan (cutoff : Nat)
  | purgeDeliveredOlderThan (cutoff : Nat)
  | purgeIdleEphemeral (cutoff : Nat) (keep : List String)
  deriving DecidableEq, Repr

/-- What a call returns. -/
inductive Value where
  | unit
  | flag (value : Bool)
  | flags (values : List Bool)
  | count (value : Nat)
  | text (value : String)
  | stored (results : List (String × Bool))
  | claimed (messages : List ClaimedMessage)
  | configs (configs : List TopicConfig)
  | topics (topics : List String)
  deriving DecidableEq, Repr

abbrev Outcome : Type := Except DbError Value

/-- The program of a call. -/
def Call.body (validJson : String → Bool) : Call → Db Value
  | .connect => (fun _ => .unit) <$> Db.connect
  | .topicConfig topic => (fun config => .configs [config]) <$> Db.topicConfig topic
  | .noteSubscribedTopic topic => (fun _ => .unit) <$> Db.noteSubscribedTopic topic
  | .configureTopics configs => .configs <$> Db.configureTopics configs
  | .listTopicConfigs => .configs <$> Db.listTopicConfigs
  | .ephemeralTopics => .topics <$> Db.ephemeralTopics
  | .flushTopicStats => .count <$> Db.flushTopicStats
  | .registerConsumer consumerId topic name attributes =>
    .text <$> Db.registerConsumer consumerId topic name attributes
  | .touchConsumer id => .flag <$> Db.touchConsumer id
  | .unregisterConsumer id => .flag <$> Db.unregisterConsumer id
  | .purgeStaleConsumers cutoff => .count <$> Db.purgeStaleConsumers cutoff
  | .enqueue idempotencyKey topic payload attributes =>
    (fun result => .stored [result]) <$> Db.enqueue idempotencyKey topic payload attributes
  | .enqueueBatch items => .stored <$> Db.enqueueBatch items
  | .acceptDropped topic => .text <$> Db.acceptDropped topic
  | .recordLiveFanout topic => (fun _ => .unit) <$> Db.recordLiveFanout topic
  | .claimBatchForTopic topic visibility limit =>
    .claimed <$> Db.claimBatchForTopic validJson topic visibility limit
  | .claimBatchForFilter filter visibility limit =>
    .claimed <$> Db.claimBatchForFilter validJson filter visibility limit
  | .claimNextExcluding visibility skipTopics =>
    (fun message => .claimed message.toList) <$>
      Db.claimNextExcluding validJson visibility skipTopics
  | .release id lease => .flag <$> Db.release id lease
  | .renewClaim id lease visibility => .flag <$> Db.renewClaim id lease visibility
  | .delivered id lease => .flag <$> Db.delivered id lease
  | .deliveredBatch messages => .flags <$> Db.deliveredBatch messages
  | .failed id lease error maxAttempts => .flag <$> Db.failed id lease error maxAttempts
  | .dropClaimed id lease error => .flag <$> Db.dropClaimed id lease error
  | .dropPending topic => .count <$> Db.dropPending topic
  | .reclaimStale => .count <$> Db.reclaimStale
  | .clearTopicMessages filter => .count <$> Db.clearTopicMessages filter
  | .purgeOlderThan cutoff => .count <$> Db.purgeOlderThan cutoff
  | .purgeDeliveredOlderThan cutoff => .count <$> Db.purgeDeliveredOlderThan cutoff
  | .purgeIdleEphemeral cutoff keep => .count <$> Db.purgeIdleEphemeral cutoff keep

/-- The calls of `Database` over its shared state. -/
def databaseComponent (validJson : String → Bool) :
    Component Call Action Reply Database Choice Outcome where
  perform := perform
  crash := Database.restart
  program := fun call => (call.body validJson).run

end CanglingBroker
