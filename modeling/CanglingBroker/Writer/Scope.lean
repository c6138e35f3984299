import CanglingBroker.Writer.Idempotency

/-!
# The scope of an idempotency key

A publish under a key that was used before is answered with the identifier of the earlier
message.  What is found under a key was published under that key to the same shard; that it
was published to the same topic is up to the publishers.
-/

namespace CanglingBroker

open Foundation

/-- A message published under a key. -/
structure Publication where
  shard : ShardIndex
  topic : String
  key : String
  id : String
  deriving DecidableEq, Repr

def WriterEvent.publication? : WriterEvent → Option Publication
  | .publish key topic _ _ uuid | .store key topic _ _ uuid _ _ =>
    (key.filter (· ≠ "")).map fun name =>
      ⟨topicShard topic, topic, name, newMessageId topic uuid⟩
  | _ => none

def storedPublications (db : Database) (shard : ShardIndex) : List Publication :=
  (db.messages (.shard shard)).rows.filterMap fun row =>
    row.idempotencyKey.map fun key => ⟨shard, row.topic, key, row.id⟩

/-- Everything published under keys: what is stored at the start, and the publishes of a
run, by either path. -/
def publications (db : Database) (events : List WriterEvent) : List Publication :=
  allShards.flatMap (storedPublications db) ++ events.filterMap WriterEvent.publication?

/-- In the shard of the topic, the key was used for no other topic. -/
def OwnKey (published : List Publication) (topic key : String) : Prop :=
  ∀ publication ∈ published,
    publication.shard = topicShard topic → publication.key = key → publication.topic = topic

instance (published : List Publication) (topic key : String) :
    Decidable (OwnKey published topic key) :=
  inferInstanceAs (Decidable (∀ publication ∈ published, _))

/-- The identifier is that of a message published to the topic under the key. -/
def PublishedAs (published : List Publication) (topic key id : String) : Prop :=
  ∃ publication ∈ published, publication.topic = topic ∧ publication.key = key ∧ publication.id = id

instance (published : List Publication) (topic key id : String) :
    Decidable (PublishedAs published topic key id) :=
  inferInstanceAs (Decidable (∃ publication ∈ published, _))

/-! ## Batches -/

theorem enqueueGroup_duplicate : ∀ {group : List (EnqueueInput × Nat)} {table stored : MessageTable}
    {results : List (String × Bool)},
    enqueueGroup group table = .ok (results, stored) →
      ∀ item id, (item, (id, true)) ∈ group.zip results →
        ∃ key, item.1.idempotencyKey = some key ∧
          ∃ row ∈ stored.rows, row.idempotencyKey = some key ∧ row.id = id
  | [], _, _, _, _ => by
    intro item id member
    cases member
  | (input, now) :: rest, table, stored, results, accepted => by
    intro item id member
    obtain ⟨_, _, _, first, group, rfl⟩ := enqueueGroup_cons accepted
    rcases List.mem_cons.mp member with same | older
    · cases same
      rcases enqueueItem_cases first with
        ⟨_, impossible, _⟩ | ⟨key, original, keyed, listed, same, result, rfl⟩
      · cases impossible
      · cases result
        exact ⟨key, keyed, original, (enqueueGroup_rows group).1 original listed, same, rfl⟩
    · exact enqueueGroup_duplicate group item id older

/-! ## Where keys come from -/

/-- A message under a key is one of the published ones. -/
def EnqueueInput.Known (published : List Publication) (input : EnqueueInput) : Prop :=
  ∀ key, input.idempotencyKey = some key →
    ⟨topicShard input.topic, input.topic, key, input.id⟩ ∈ published

def MessageRow.Known (published : List Publication) (shard : ShardIndex)
    (row : MessageRow) : Prop :=
  ∀ key, row.idempotencyKey = some key → ⟨shard, row.topic, key, row.id⟩ ∈ published

theorem EnqueueInput.Known.row {published : List Publication} {input : EnqueueInput}
    {shard : ShardIndex} (known : input.Known published) (here : topicShard input.topic = shard)
    (now : Nat) :
    (input.row now).Known published shard := by
  intro key keyed
  rw [← here]
  exact known key keyed

namespace Writer

/-- Everything that the writer has under a key was published under it, to the same
shard. -/
structure Traced (published : List Publication) (writer : Writer) : Prop where
  recent :
    ∀ shard key id, (writer.shards shard).recent.get key = some id →
      ∃ topic, ⟨shard, topic, key, id⟩ ∈ published
  waiting :
    ∀ call input, writer.calls call = some (.publish input) → input.Known published
  unstored :
    ∀ shard, ∀ input ∈ (writer.shards shard).unstored,
      topicShard input.topic = shard ∧ input.Known published
  rows :
    ∀ shard, ∀ row ∈ (writer.db.messages (.shard shard)).rows, row.Known published shard
  receipts :
    ∀ receipt ∈ writer.receipts, receipt.duplicate = true → ∃ key topic, receipt.key = some key ∧
        ⟨topicShard receipt.topic, topic, key, receipt.id⟩ ∈ published

section Tracing

variable {published : List Publication} {before after : Writer} {event : WriterEvent}

theorem Traced.waiting_step (traced : before.Traced published)
    (listed : ∀ publication, event.publication? = some publication → publication ∈ published)
    (effect : WriterEffect before after event) (call : Nat) (input : EnqueueInput)
    (waits : after.calls call = some (.publish input)) : input.Known published := by
  have same (calls : after.calls = before.calls) : input.Known published := by
    rw [calls] at waits
    exact traced.waiting call input waits
  have fewer (ended : Nat) (calls : after.calls = Function.update before.calls ended none) :
      input.Known published := by
    rw [calls] at waits
    by_cases here : call = ended
    · subst here
      rw [Function.update_self] at waits
      cases waits
    · rw [Function.update_of_ne here] at waits
      exact traced.waiting call input waits
  cases effect with
  | offered keyText _ _ _ _ _ calls =>
    rw [calls] at waits
    by_cases here : call = before.fresh
    · subst here
      rw [Function.update_self] at waits
      cases waits
      intro key keyed
      refine listed _ ?_
      rw [WriterEvent.publication?, show keyText.filter (· ≠ "") = some key from keyed]
      rfl
    · rw [Function.update_of_ne here] at waits
      exact traced.waiting call input waits
  | repeated _ _ _ _ _ _ _ _ _ calls | batchStored _ _ _ _ _ _ _ _ _ _ _ calls
  | storedDirectly _ _ _ _ _ _ _ _ _ _ _ calls | acted _ _ _ _ _ _ calls => exact same calls
  | admitted ended _ _ calls => exact fewer ended calls
  | withdrawn _ ended _ _ _ calls => exact fewer ended calls
  | settled _ offers => exact traced.waiting call input ((offers call input).mp waits)
  | moved _ _ _ written =>
    subst written
    exact traced.waiting call input waits

theorem known_of_store {keyText : Option String} {topic : String} {payload : List UInt8}
    {attributes uuid : String} {now : Nat} {fails : Bool}
    (same : event = .store keyText topic payload attributes uuid now fails)
    (listed : ∀ publication, event.publication? = some publication → publication ∈ published) :
    (message keyText topic payload attributes uuid).Known published := by
  subst same
  intro key keyed
  refine listed _ ?_
  rw [WriterEvent.publication?, show keyText.filter (· ≠ "") = some key from keyed]
  rfl

/-- A row that is stored after a step was stored before it, or is one of the messages
that it stores. -/
theorem Traced.rows_step (traced : before.Traced published)
    (listed : ∀ publication, event.publication? = some publication → publication ∈ published)
    (effect : WriterEffect before after event) (shard : ShardIndex) (row : MessageRow)
    (member : row ∈ (after.db.messages (.shard shard)).rows) :
    row.Known published shard := by
  have same (messages : after.db.messages = before.db.messages) : row.Known published shard := by
    rw [messages] at member
    exact traced.rows shard row member
  have written (changed : ShardIndex) (table : MessageTable)
      (messages : after.db.messages = Function.update before.db.messages (.shard changed) table)
      (known : ∀ row ∈ table.rows, row.Known published changed) :
      row.Known published shard := by
    rw [messages] at member
    by_cases here : shard = changed
    · subst here
      rw [Function.update_self] at member
      exact known row member
    · rw [Function.update_of_ne (by simpa using here)] at member
      exact traced.rows shard row member
  cases effect with
  | offered _ _ _ _ _ _ _ _ messages | repeated _ _ _ _ _ _ _ _ _ _ _ messages
  | admitted _ _ _ _ _ _ messages | withdrawn _ _ _ _ _ _ _ messages | settled _ _ _ messages =>
    exact same messages
  | moved _ _ _ moved => exact same (congrArg (fun w => w.db.messages) moved)
  | batchStored _ changed _ _ _ _ _ table phase _ accepted _ shards messages =>
      refine written changed table messages fun stored isStored => ?_
      rcases (enqueueGroup_rows accepted).2 stored isStored with old | ⟨item, isItem, rfl⟩
      · exact traced.rows changed stored old
      · have unstored : item.1 ∈ (before.shards changed).unstored := by
          refine List.mem_append_left _ ?_
          rw [phase]
          exact (List.of_mem_zip isItem).1
        obtain ⟨here, known⟩ := traced.unstored changed item.1 unstored
        exact known.row here item.2
  | storedDirectly _ topic _ _ _ now _ _ _ table accepted _ _ messages =>
      refine written (topicShard topic) table messages fun stored isStored => ?_
      rcases enqueueItem_cases accepted with ⟨_, _, rows⟩ | ⟨_, _, _, _, _, _, rfl⟩
      · rw [rows] at isStored
        rcases List.mem_append.mp isStored with old | new
        · exact traced.rows _ stored old
        · rw [List.mem_singleton.mp new]
          exact (known_of_store rfl listed).row rfl now
      · exact traced.rows _ stored isStored
  | acted _ _ _ effect storesNothing =>
    rcases effect.rows_after member with ⟨stored, isStored, moves⟩ | created
    · intro key keyed
      have known := traced.rows shard stored isStored key
      rw [← congrArg Message.idempotencyKey moves.toMessage_eq,
        ← congrArg Message.topic moves.toMessage_eq,
        ← congrArg Message.id moves.toMessage_eq] at known
      exact known keyed
    · cases created with
      | enqueued _ _ asked | copied _ asked =>
        rw [asked] at storesNothing
        cases storesNothing

/-- A duplicate that a step reports is found under a recent key or in the table. -/
theorem Traced.receipts_step (traced : before.Traced published)
    (effect : WriterEffect before after event) (receipt : Receipt)
    (member : receipt ∈ after.receipts) (duplicate : receipt.duplicate = true) :
    ∃ key topic, receipt.key = some key ∧
      ⟨topicShard receipt.topic, topic, key, receipt.id⟩ ∈ published := by
  have same (receipts : after.receipts = before.receipts) : ∃ key topic, receipt.key = some key ∧
      ⟨topicShard receipt.topic, topic, key, receipt.id⟩ ∈ published := by
    rw [receipts] at member
    exact traced.receipts receipt member duplicate
  cases effect with
  | offered _ _ _ _ _ _ _ _ _ logs | withdrawn _ _ _ _ _ _ _ _ logs | settled _ _ _ _ logs
  | acted _ _ _ _ _ _ _ _ _ logs => exact same logs.receipts
  | moved _ _ _ moved =>
    subst moved
    exact traced.receipts receipt member duplicate
  | batchStored _ _ _ _ _ _ _ _ _ _ _ _ _ _ receipts => exact same receipts
  | repeated _ _ _ _ _ name id _ found _ _ _ receipts =>
      rw [receipts] at member
      rcases List.mem_cons.mp member with rfl | old
      · obtain ⟨other, isPublished⟩ := traced.recent _ name id found
        exact ⟨name, other, rfl, isPublished⟩
      · exact traced.receipts receipt old duplicate
  | admitted _ _ _ _ _ _ _ receipts =>
    rw [receipts] at member
    rcases List.mem_cons.mp member with rfl | old
    · cases duplicate
    · exact traced.receipts receipt old duplicate
  | storedDirectly _ topic _ _ _ _ _ _ _ _ accepted _ _ _ receipts =>
      rw [receipts] at member
      rcases List.mem_cons.mp member with rfl | old
      · subst duplicate
        rcases enqueueItem_cases accepted with
          ⟨_, impossible, _⟩ | ⟨key, original, keyed, isStored, sameKey, result, _⟩
        · cases impossible
        · cases result
          exact ⟨key, original.topic, keyed, traced.rows _ original isStored key sameKey⟩
      · exact traced.receipts receipt old duplicate

theorem traced_step (traced : before.Traced published)
    (listed : ∀ publication, event.publication? = some publication → publication ∈ published)
    (effect : WriterEffect before after event) : after.Traced published where
  recent := by
    intro shard key id shown
    rcases recent_of_effect effect shown with
      old | ⟨_, topic, _, _, _, rfl, rfl, keyed, rfl, _⟩
    · exact traced.recent shard key id old
    · refine ⟨topic, listed _ ?_⟩
      rw [WriterEvent.publication?, keyed]
      rfl
  waiting := traced.waiting_step listed effect
  unstored := fun shard input member => by
    rcases mem_unstored_step effect member with old | ⟨here, call, waiting⟩
    · exact traced.unstored shard input old
    · exact ⟨here, traced.waiting call input waiting⟩
  rows := traced.rows_step listed effect
  receipts := traced.receipts_step effect

end Tracing

/-! ## Whole runs -/

variable {db : Database}

theorem mem_publications_of_row {events : List WriterEvent} {shard : ShardIndex}
    {row : MessageRow} (member : row ∈ (db.messages (.shard shard)).rows) :
    row.Known (publications db events) shard := by
  intro key keyed
  refine List.mem_append_left _ (List.mem_flatMap.mpr ⟨shard, List.mem_finRange shard, ?_⟩)
  exact List.mem_filterMap.mpr ⟨row, member, by rw [keyed]; rfl⟩

variable {order : ShardIndex → List String} {limits : Limits} {initial final : Writer}

theorem traced_start (started : start limits db order = some initial)
    (events : List WriterEvent) : initial.Traced (publications db events) := by
  have recent : ∀ shard key id, (initial.shards shard).recent.get key = some id →
      ∃ topic, ⟨shard, topic, key, id⟩ ∈ publications db events := by
    intro shard key id shown
    obtain ⟨row, member, keyed, rfl⟩ := row_of_start started shown
    exact ⟨row.topic, mem_publications_of_row member key keyed⟩
  unfold start at started
  split at started <;> cases started
  refine ⟨recent, ?_, ?_, fun shard row member => mem_publications_of_row member, ?_⟩
  · intro call input waits
    cases waits
  · intro shard input member
    cases member
  · intro receipt member
    cases member

theorem traced_replay {events : List WriterEvent} (started : start limits db order = some initial)
    (ran : initial.replay limits events = some final) :
    final.Traced (publications db events) := by
  have listed : ∀ event ∈ events, ∀ publication, event.publication? = some publication →
      publication ∈ publications db events := by
    intro event member publication published
    exact List.mem_append_right _ (List.mem_filterMap.mpr ⟨event, member, published⟩)
  exact replay_invariant (fun _ held met effect => traced_step held met effect) started
    (traced_start started events) (along_of_mem listed) ran

/-- **The scope of a key.**  In every run, from any stored data: a publish that is told
that it is a duplicate, by either path, is told the identifier of a message published to
its topic under its key, if the key was used for no other topic of the shard; and a batch
leaves out a message as a duplicate only for such a message, under the same condition. -/
theorem duplicates_scoped (limits : Limits) (db : Database) (order : ShardIndex → List String)
    (initial final : Writer) (events : List WriterEvent)
    (started : start limits db order = some initial)
    (ran : initial.replay limits events = some final) :
    (∀ receipt ∈ final.receipts, receipt.duplicate = true → ∃ key, receipt.key = some key ∧
        (OwnKey (publications db events) receipt.topic key →
          PublishedAs (publications db events) receipt.topic key receipt.id)) ∧
      ∀ shard enqueues acks stop times results table,
        (final.shards shard).phase = .persisting enqueues acks stop →
          enqueueGroup (enqueues.zip times) (final.db.messages (.shard shard)) =
              .ok (results, table) →
            ∀ item id, (item, (id, true)) ∈ (enqueues.zip times).zip results →
              ∃ key, item.1.idempotencyKey = some key ∧
                (OwnKey (publications db events) item.1.topic key →
                  PublishedAs (publications db events) item.1.topic key id) := by
  have traced := traced_replay started ran
  constructor
  · intro receipt member duplicate
    obtain ⟨key, topic, keyed, published⟩ := traced.receipts receipt member duplicate
    refine ⟨key, keyed, fun own => ⟨_, published, ?_, rfl, rfl⟩⟩
    exact own _ published rfl rfl
  · intro shard enqueues acks stop times results table phase accepted item id duplicate
    have unstored {other : EnqueueInput × Nat} (listed : other ∈ enqueues.zip times) :
        topicShard other.1.topic = shard ∧ other.1.Known (publications db events) := by
      refine traced.unstored shard other.1 (List.mem_append_left _ ?_)
      rw [phase]
      exact (List.of_mem_zip listed).1
    obtain ⟨key, keyed, row, stored, sameKey, rfl⟩ :=
      enqueueGroup_duplicate accepted item id duplicate
    have known : row.Known (publications db events) shard := by
      rcases (enqueueGroup_rows accepted).2 row stored with old | ⟨other, listed, rfl⟩
      · exact traced.rows shard row old
      · exact (unstored listed).2.row (unstored listed).1 other.2
    have published := known key sameKey
    have here := (unstored (List.of_mem_zip duplicate).1).1
    refine ⟨key, keyed, fun own => ⟨_, published, ?_, rfl, rfl⟩⟩
    exact own _ published here.symm rfl

/-- Two messages under one key, to topics of different shards; the second topic repeats
the key. -/
def sharedAcrossShards : List WriterEvent :=
  [.publish (some "k") "jobs" [104] "\x7b\x7d" "u1", .accept 0,
    .publish (some "k") "a" [105] "\x7b\x7d" "u2", .accept 1,
    .publish (some "k") "a" [105] "\x7b\x7d" "u3"]

theorem duplicates_scoped_sharedAcrossShards : ∃ initial final,
    start (Limits.perShard 16 1) Database.empty (fun _ => []) = some initial ∧
      initial.replay (Limits.perShard 16 1) sharedAcrossShards = some final ∧
      (∃ receipt ∈ final.receipts, receipt.duplicate = true) ∧
      ∀ receipt ∈ final.receipts, receipt.duplicate = true →
        PublishedAs (publications Database.empty sharedAcrossShards) receipt.topic "k"
          receipt.id := by
  obtain ⟨initial, final, started, ran, repeated, own⟩ : ∃ initial final,
      start (Limits.perShard 16 1) Database.empty (fun _ => []) = some initial ∧
        initial.replay (Limits.perShard 16 1) sharedAcrossShards = some final ∧
        (∃ receipt ∈ final.receipts, receipt.duplicate = true) ∧
        ∀ receipt ∈ final.receipts, receipt.key = some "k" ∧
          OwnKey (publications Database.empty sharedAcrossShards) receipt.topic "k" :=
    exists_run_of_check (by decide +kernel)
  refine ⟨initial, final, started, ran, repeated, fun receipt member duplicate => ?_⟩
  obtain ⟨key, keyed, inScope⟩ :=
    (duplicates_scoped _ _ _ _ _ _ started ran).1 receipt member duplicate
  have known := own receipt member
  rw [known.1, Option.some.injEq] at keyed
  subst keyed
  exact inScope known.2

/-- Two messages under one key, to two topics of one shard, over the queue writer and over
the HTTP path. -/
def sharedInShard : List WriterEvent :=
  [.publish (some "k") "jobs" [104] "\x7b\x7d" "u1", .accept 0,
    .publish (some "k") "z" [105] "\x7b\x7d" "u2", .receive 13, .close 13,
    .persist 13 [5] {}, .store (some "k") "z" [105] "\x7b\x7d" "u3" 6 false]

/-- Both publishes to the second topic are answered with the message of the first, and
nothing was ever stored for the second. -/
theorem duplicate_of_other_topic : ∃ initial final,
    start (Limits.perShard 16 1) Database.empty (fun _ => []) = some initial ∧
      initial.replay (Limits.perShard 16 1) sharedInShard = some final ∧
      (∃ receipt ∈ final.receipts, receipt.topic = "z" ∧ receipt.durable = false) ∧
      (∃ receipt ∈ final.receipts, receipt.topic = "z" ∧ receipt.durable = true) ∧
      ∀ receipt ∈ final.receipts, receipt.topic = "z" →
        receipt.duplicate = true ∧ receipt.key = some "k" ∧
          ¬ PublishedAs (publications Database.empty sharedInShard) receipt.topic "k" receipt.id :=
  exists_run_of_check (by decide +kernel)

end Writer

end CanglingBroker
