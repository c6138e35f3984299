import CanglingBroker.Foundation.Pool
import CanglingBroker.Message

/-!
# The database and its atomic actions

Every `await` of a call is one action on this state, and so is every access to a table in
memory.  A transaction is one action, taken at its commit.  Clock readings, drawn
identifiers, the rows kept among equals and failures come with the scheduler's choice.
-/

namespace CanglingBroker

open Foundation

/-! ## State -/

/-- A database file with a `messages` table. -/
inductive Store where
  | control
  | shard (index : ShardIndex)
  deriving DecidableEq, Repr

structure TopicStats where
  accepted : Int
  duplicates : Int
  delivered : Int
  failed : Int
  dropped : Int
  pending : Int
  processing : Int
  delivery : String
  persistence : String
  lastSeenAt : Option Nat
  configured : Bool
  deriving DecidableEq, Repr

def TopicStats.default : TopicStats where
  accepted := 0
  duplicates := 0
  delivered := 0
  failed := 0
  dropped := 0
  pending := 0
  processing := 0
  delivery := "broadcast"
  persistence := "ephemeral"
  lastSeenAt := none
  configured := false

def TopicStats.config (topic : String) (row : TopicStats) : TopicConfig :=
  TopicConfig.fromColumns topic row.delivery row.persistence

structure TopicStatsDelta where
  accepted : Int := 0
  duplicates : Int := 0
  delivered : Int := 0
  deriving DecidableEq, Repr

def TopicStatsDelta.add (left right : TopicStatsDelta) : TopicStatsDelta where
  accepted := left.accepted + right.accepted
  duplicates := left.duplicates + right.duplicates
  delivered := left.delivered + right.delivered

structure Consumer where
  topic : String
  name : String
  attributes : String
  lastSeenAt : Nat
  createdAt : Nat
  deriving DecidableEq, Repr

/-- Everything the calls of `Database` share.  `issued` records the identifiers
drawn so far; no call reads it. -/
structure Database where
  messages : Store → MessageTable
  migrated : Option Nat
  topicStats : Dict String TopicStats
  consumers : Dict String Consumer
  cache : Dict String TopicConfig
  turn : Nat
  deltas : Dict String TopicStatsDelta
  issued : List String

namespace Database

/-- A database created by this release. -/
def empty : Database where
  messages := fun _ => Table.empty
  migrated := none
  topicStats := ∅
  consumers := ∅
  cache := ∅
  turn := 0
  deltas := ∅
  issued := []

def setMessages (store : Store) (table : MessageTable) (db : Database) :
    Database :=
  { db with messages := Function.update db.messages store table }

@[simp]
theorem setMessages_messages_self (store : Store) (table : MessageTable) (db : Database) :
    (db.setMessages store table).messages store = table := by
  simp [setMessages]

theorem setMessages_messages_of_ne {store other : Store} (different : other ≠ store)
    (table : MessageTable) (db : Database) :
    (db.setMessages store table).messages other = db.messages other := by
  simp [setMessages, different]

def restart (db : Database) : Database :=
  { db with cache := ∅, turn := 0, deltas := ∅ }

end Database

/-! ## The topic catalogue -/

/-- The statements that write `topic_stats`, with their bound values. -/
inductive StatsUpdate where
  | noteSubscribed (topic persistence : String) (now : Nat)
  | configure (topic delivery persistence : String) (now : Nat)
  | bump (topic : String) (accepted duplicates delivered failed : Int) (now : Nat)
  | bumpDropped (topic : String) (dropped : Int) (now : Nat)
  | flush (pending : List (String × TopicStatsDelta)) (now : Nat)
  | reset (topic : String)
  | touchUnseen (now : Nat)
  | demoteExact
  | seedFromMessages
  | seedFromConsumers
  | clearDepths
  | setDepth (topic : String) (pending processing : Int) (now : Nat)
  deriving DecidableEq, Repr

/-- `INSERT … ON CONFLICT(topic) DO UPDATE`. -/
def upsert (topic : String) (new : TopicStats)
    (onConflict : TopicStats → TopicStats) (stats : Dict String TopicStats) :
    Dict String TopicStats :=
  match stats.lookup topic with
  | none => stats.insert topic new
  | some row => stats.insert topic (onConflict row)

/-- `INSERT OR IGNORE`. -/
def seed (topic : String) (new : TopicStats) (stats : Dict String TopicStats) :
    Dict String TopicStats :=
  upsert topic new id stats

/-- `UPDATE topic_stats SET … WHERE …`, over the listed topics. -/
def adjust (change : String → TopicStats → TopicStats) :
    List String → Dict String TopicStats → Dict String TopicStats
  | [], stats => stats
  | topic :: rest, stats =>
    match stats.lookup topic with
    | none => adjust change rest stats
    | some row => adjust change rest (stats.insert topic (change topic row))

/-- One row of the flush transaction. -/
def flushOne (now : Nat) (stats : Dict String TopicStats)
    (entry : String × TopicStatsDelta) : Dict String TopicStats :=
  upsert entry.1
    { TopicStats.default with
      accepted := entry.2.accepted
      duplicates := entry.2.duplicates
      delivered := entry.2.delivered
      lastSeenAt := some now }
    (fun row =>
      { row with
        accepted := row.accepted + entry.2.accepted
        duplicates := row.duplicates + entry.2.duplicates
        delivered := row.delivered + entry.2.delivered
        lastSeenAt := some now })
    stats

/-- How many stored messages of the topic have the status. -/
def countStatus (table : MessageTable) (topic : String) (status : Status) : Int :=
  (table.rows.countP fun row => row.topic = topic && row.status = status : Nat)

/-- The catalogue row seeded for a topic of the control file's messages. -/
def seededStats (table : MessageTable) (topic : String) : TopicStats :=
  { TopicStats.default with
    accepted := (table.rows.countP fun row => row.topic = topic : Nat)
    delivered := countStatus table topic .delivered
    failed := countStatus table topic .failed }

/-- What a statement leaves of the catalogue.  Two of them read other tables of
the control file. -/
def StatsUpdate.apply (db : Database) : StatsUpdate → Dict String TopicStats
  | .noteSubscribed topic persistence now =>
    upsert topic
      { TopicStats.default with
        persistence := persistence
        lastSeenAt := some now }
      (fun row =>
        { row with
          lastSeenAt := some now
          persistence :=
            if row.configured then row.persistence else persistence })
      db.topicStats
  | .configure topic delivery persistence now =>
    upsert topic
      { TopicStats.default with
        delivery := delivery
        persistence := persistence
        configured := true
        lastSeenAt := some now }
      (fun row =>
        { row with
          delivery := delivery
          persistence := persistence
          configured := true })
      db.topicStats
  | .bump topic accepted duplicates delivered failed now =>
    upsert topic
      { TopicStats.default with
        accepted := accepted
        duplicates := duplicates
        delivered := delivered
        failed := failed
        lastSeenAt := some now }
      (fun row =>
        { row with
          accepted := row.accepted + accepted
          duplicates := row.duplicates + duplicates
          delivered := row.delivered + delivered
          failed := row.failed + failed
          lastSeenAt := some now })
      db.topicStats
  | .bumpDropped topic dropped now =>
    upsert topic
      { TopicStats.default with dropped := dropped, lastSeenAt := some now }
      (fun row =>
        { row with dropped := row.dropped + dropped, lastSeenAt := some now })
      db.topicStats
  | .flush pending now => pending.foldl (flushOne now) db.topicStats
  | .reset topic =>
    adjust
      (fun _ row =>
        { row with
          accepted := 0
          duplicates := 0
          delivered := 0
          failed := 0
          dropped := 0
          pending := 0
          processing := 0 })
      [topic] db.topicStats
  | .touchUnseen now =>
    adjust
      (fun _ row => { row with lastSeenAt := some (row.lastSeenAt.getD now) })
      db.topicStats.keys db.topicStats
  | .demoteExact =>
    adjust
      (fun topic row =>
        if !row.configured && row.persistence = "persistent" && !isWildcardFilter topic then
          { row with persistence := "ephemeral" }
        else
          row)
      db.topicStats.keys db.topicStats
  | .seedFromMessages =>
    ((db.messages .control).rows.map (·.topic)).foldl
      (fun stats topic => seed topic (seededStats (db.messages .control) topic) stats)
      db.topicStats
  | .seedFromConsumers =>
    (db.consumers.entries.map (·.2.topic)).foldl
      (fun stats topic => seed topic TopicStats.default stats)
      db.topicStats
  | .clearDepths =>
    adjust (fun _ row => { row with pending := 0, processing := 0 })
      db.topicStats.keys db.topicStats
  | .setDepth topic pending processing now =>
    upsert topic
      { TopicStats.default with
        pending := pending
        processing := processing
        lastSeenAt := some now }
      (fun row => { row with pending := pending, processing := processing })
      db.topicStats

/-! ## Actions -/

/-- The statements and transactions, with their bound values. -/
inductive Sql where
  | update (store : Store) (statement : Update)
  | deliver (store : Store) (now : Nat) (group : List (String × String))
  | enqueue (store : Store) (group : List (EnqueueInput × Nat))
  | copy (store : Store) (row : MessageRow)
  | remove (store : Store) (removal : Removal)
  | selectId (store : Store) (id : String)
  | selectHeld (store : Store) (id lease : String)
  | selectReady (store : Store) (now : Nat) (skip : List String)
  | readyTopics (store : Store) (now : Nat)
  | selectAll (store : Store)
  | queueDepths (store : Store)
  | selectMigration
  | recordMigration (copied : Nat)
  | stats (statement : StatsUpdate)
  | selectStats (topic : String)
  | selectTopics
  | selectConfigs
  | selectEphemeral
  | selectIdle (cutoff : Nat)
  | deleteIdle (topics : List String)
  | updateConsumer (id topic name attributes : String) (now : Nat)
  | insertConsumer (id topic name attributes : String) (now : Nat)
  | touchConsumer (id : String) (now : Nat)
  | deleteConsumer (id : String)
  | purgeConsumers (cutoff : Nat)

/-- What a statement answers when it succeeds. -/
@[reducible]
def Sql.Answer : Sql → Type
  | .update _ _ => List MessageRow
  | .deliver _ _ _ => List (Option String)
  | .enqueue _ _ => List (String × Bool)
  | .copy _ _ => Unit
  | .remove _ _ => Nat
  | .selectId _ _ => Option MessageRow
  | .selectHeld _ _ _ => Option MessageRow
  | .selectReady _ _ _ => Option MessageRow
  | .readyTopics _ _ => List String
  | .selectAll _ => List MessageRow
  | .queueDepths _ => List (String × Int × Int)
  | .selectMigration => Option Nat
  | .recordMigration _ => Unit
  | .stats _ => Unit
  | .selectStats _ => Option TopicStats
  | .selectTopics => List String
  | .selectConfigs => List TopicConfig
  | .selectEphemeral => List String
  | .selectIdle _ => List String
  | .deleteIdle _ => Nat
  | .updateConsumer _ _ _ _ _ => Nat
  | .insertConsumer _ _ _ _ _ => Unit
  | .touchConsumer _ _ => Nat
  | .deleteConsumer _ => Nat
  | .purgeConsumers _ => Nat

/-- The accesses outside the database files: the clock, drawn identifiers and
the tables in memory. -/
inductive Access where
  | now
  | newUuid
  | nextTurn
  | cacheGet (topic : String)
  | cacheInsert (topic : String) (config : TopicConfig)
  | cacheRemove (topics : List String)
  | openCache (configs : List TopicConfig)
  | recordStats (topic : String) (delta : TopicStatsDelta)
  | takeStats
  | restoreStats (pending : Dict String TopicStatsDelta)

@[reducible]
def Access.Answer : Access → Type
  | .now => Nat
  | .newUuid => String
  | .nextTurn => Nat
  | .cacheGet _ => Option TopicConfig
  | .cacheInsert _ _ => Unit
  | .cacheRemove _ => Unit
  | .openCache _ => Unit
  | .recordStats _ _ => Unit
  | .takeStats => Dict String TopicStatsDelta
  | .restoreStats _ => Unit

inductive Action where
  | sql (statement : Sql)
  | access (access : Access)

@[reducible]
def Reply : Action → Type
  | .sql statement => Except DbError statement.Answer
  | .access access => access.Answer

/-- What the scheduler decides about one action. -/
structure Choice where
  fails : Bool := false
  clock : Nat := 0
  uuid : String := ""
  order : List String := []

/-- The rows of a table in the order of the listed identifiers. -/
def arrange (order : List String) (rows : List MessageRow) :
    List MessageRow :=
  order.filterMap fun id => rows.find? fun row => row.id = id

/-- The topics whose idle, unconfigured, ephemeral catalogue row may go. -/
def idleTopics (db : Database) (cutoff : Nat) : List String :=
  (db.topicStats.entries.filter fun entry =>
    entry.2.persistence = "ephemeral" && !entry.2.configured &&
      entry.2.lastSeenAt.any (· < cutoff) &&
      !(db.consumers.entries.any fun consumer => consumer.2.topic = entry.1)).map
    (·.1)

def ephemeralRows (db : Database) : List String :=
  (db.topicStats.entries.filter fun entry =>
    decide (entry.2.persistence = "ephemeral")).map (·.1)

/-- The transaction of `purge_idle_ephemeral` on the catalogue. -/
def deleteIdleRows :
    List String → Dict String TopicStats → Nat × Dict String TopicStats
  | [], stats => (0, stats)
  | topic :: rest, stats =>
    match stats.lookup topic with
    | none => deleteIdleRows rest stats
    | some row =>
      if row.persistence = "ephemeral" && !row.configured then
        let later := deleteIdleRows rest (stats.erase topic)
        (later.1 + 1, later.2)
      else
        deleteIdleRows rest stats

def eraseAll {Value : Type} :
    List String → Dict String Value → Dict String Value
  | [], dict => dict
  | topic :: rest, dict => eraseAll rest (dict.erase topic)

/-- The active depth of every topic with pending or claimed messages. -/
def depths (table : MessageTable) : List (String × Int × Int) :=
  ((table.rows.filter fun row =>
    row.status = .pending || row.status = .processing).map (·.topic)).dedup.map
    fun topic =>
      (topic, countStatus table topic .pending, countStatus table topic .processing)

def addDeltas (pending deltas : Dict String TopicStatsDelta) :
    Dict String TopicStatsDelta :=
  pending.entries.foldl
    (fun total entry => total.insert entry.1 (((total.lookup entry.1).getD {}).add entry.2))
    deltas

def dispatchable (now : Nat) (skip : List String) (row : MessageRow) : Bool :=
  row.ready now && row.topic ∉ skip

/-- The answer of a statement and the state after it; undefined where the
scheduler's choice is not one the statement leaves open. -/
def Sql.execute (choice : Choice) (db : Database) :
    (statement : Sql) → Option (Except DbError (statement.Answer × Database))
  | .update store statement =>
    if statement.Admits (db.messages store) choice.order then
      let outcome := statement.execute choice.order (db.messages store)
      some (.ok (outcome.1, db.setMessages store outcome.2))
    else
      none
  | .deliver store now group =>
    let outcome := deliverGroup now group (db.messages store)
    some (.ok (outcome.1, db.setMessages store outcome.2))
  | .enqueue store group =>
    some <|
      match enqueueGroup group (db.messages store) with
      | .error problem => .error problem
      | .ok (results, table) => .ok (results, db.setMessages store table)
  | .copy store row =>
    some (.ok ((), db.setMessages store ((db.messages store).insertOrIgnore row)))
  | .remove store removal =>
    some <| .ok ((db.messages store).rows.countP removal.guard,
        db.setMessages store ((db.messages store).delete removal.guard))
  | .selectId store id => some (.ok ((db.messages store).rows.find? fun row => row.id = id, db))
  | .selectHeld store id lease => some (.ok ((db.messages store).rows.find? (·.held id lease), db))
  | .selectReady store now skip =>
    let candidates :=
      (db.messages store).rows.filter (dispatchable now skip)
    if Picks candidates 1 choice.order then
      some (.ok ((arrange choice.order candidates).head?, db))
    else
      none
  | .readyTopics store now =>
    if choice.order.Perm (((db.messages store).rows.filter (·.ready now)).map (·.topic)).dedup then
      some (.ok (choice.order, db))
    else
      none
  | .selectAll store =>
    if choice.order.Perm ((db.messages store).rows.map (·.id)) then
      some (.ok (arrange choice.order (db.messages store).rows, db))
    else
      none
  | .queueDepths store => some (.ok (depths (db.messages store), db))
  | .selectMigration => some (.ok (db.migrated, db))
  | .recordMigration copied =>
    some <|
      match db.migrated with
      | none => .ok ((), { db with migrated := some copied })
      | some _ => .error .statement
  | .stats statement => some (.ok ((), { db with topicStats := statement.apply db }))
  | .selectStats topic => some (.ok (db.topicStats.lookup topic, db))
  | .selectTopics =>
    if choice.order.Perm db.topicStats.keys then
      some (.ok (choice.order, db))
    else
      none
  | .selectConfigs =>
    some <| .ok
        ((db.topicStats.entries.map fun entry =>
            entry.2.config entry.1).insertionSort
            fun left right => left.topic ≤ right.topic,
          db)
  | .selectEphemeral =>
    if choice.order.Perm (ephemeralRows db) then
      some (.ok (choice.order, db))
    else
      none
  | .selectIdle cutoff =>
    if choice.order.Perm (idleTopics db cutoff) then
      some (.ok (choice.order, db))
    else
      none
  | .deleteIdle topics =>
    let outcome := deleteIdleRows topics db.topicStats
    some (.ok (outcome.1, { db with topicStats := outcome.2 }))
  | .updateConsumer id topic name attributes now =>
    some <|
      match db.consumers.lookup id with
      | none => .ok (0, db)
      | some consumer =>
        .ok (1,
          { db with
            consumers := db.consumers.insert id
              { consumer with
                topic := topic
                name := name
                attributes := attributes
                lastSeenAt := now } })
  | .insertConsumer id topic name attributes now =>
    some <|
      match db.consumers.lookup id with
      | some _ => .error .statement
      | none =>
        .ok ((),
          { db with
            consumers := db.consumers.insert id ⟨topic, name, attributes, now, now⟩ })
  | .touchConsumer id now =>
    some <|
      match db.consumers.lookup id with
      | none => .ok (0, db)
      | some consumer =>
        .ok (1,
          { db with
            consumers := db.consumers.insert id { consumer with lastSeenAt := now } })
  | .deleteConsumer id =>
    some <| .ok (if (db.consumers.lookup id).isSome then 1 else 0,
        { db with consumers := db.consumers.erase id })
  | .purgeConsumers cutoff =>
    let stale :=
      (db.consumers.entries.filter fun entry => entry.2.lastSeenAt < cutoff).map (·.1)
    some <| .ok (stale.length, { db with consumers := eraseAll stale db.consumers })

/-- The effect of an access.  An identifier is never drawn twice. -/
def Access.execute (choice : Choice) (db : Database) :
    (access : Access) → Option (access.Answer × Database)
  | .now => some (choice.clock, db)
  | .newUuid =>
    if choice.uuid ∈ db.issued then
      none
    else
      some (choice.uuid, { db with issued := choice.uuid :: db.issued })
  | .nextTurn => some (db.turn, { db with turn := (db.turn + 1) % 2 ^ 64 })
  | .cacheGet topic => some (db.cache.lookup topic, db)
  | .cacheInsert topic config => some ((), { db with cache := db.cache.insert topic config })
  | .cacheRemove topics => some ((), { db with cache := eraseAll topics db.cache })
  | .openCache configs =>
    some
      ((),
        { db with
          cache := configs.foldl (fun cache config => cache.insert config.topic config) ∅
          turn := 0
          deltas := ∅ })
  | .recordStats topic delta =>
    some
      ((),
        { db with
          deltas := db.deltas.insert topic (((db.deltas.lookup topic).getD {}).add delta) })
  | .takeStats => some (db.deltas, { db with deltas := ∅ })
  | .restoreStats pending => some ((), { db with deltas := addDeltas pending db.deltas })

/-- The effect of one action.  A failing statement changes nothing. -/
def perform (choice : Choice) (db : Database) :
    (request : Action) → Option (Reply request × Database)
  | .sql statement =>
    if choice.fails then
      some (.error .statement, db)
    else
      match statement.execute choice db with
      | none => none
      | some (.error problem) => some (.error problem, db)
      | some (.ok (answer, after)) => some (.ok answer, after)
  | .access access => access.execute choice db

end CanglingBroker
