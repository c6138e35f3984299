import CanglingBroker.Database.Migration

/-!
# Routing to shards

The hash of a topic, the prefix of an identifier when it is made and the parser of that
prefix all name the shard of a message.  A row is routed when they agree with the shard
that holds it.  The migration keeps a legacy identifier that has the form of a prefix.
-/

namespace CanglingBroker

open Foundation
open Program (Ensures Guided Grows guided_pure guided_throw
  guided_exceptBind guided_map guided_bind guided_done)

/-- The row is in the shard its topic and its identifier name. -/
def MessageRow.Routed (row : MessageRow) (shard : ShardIndex) : Prop :=
  topicShard row.topic = shard ∧ messageIdShard row.id = some shard

instance (row : MessageRow) (shard : ShardIndex) : Decidable (row.Routed shard) :=
  inferInstanceAs (Decidable (_ ∧ _))

/-- A legacy identifier with a shard prefix names the shard of the topic. -/
def MessageRow.PrefixFits (row : MessageRow) : Prop :=
  messageIdShard row.id = none ∨ messageIdShard row.id = some (topicShard row.topic)

instance (row : MessageRow) : Decidable row.PrefixFits :=
  inferInstanceAs (Decidable (_ ∨ _))

def Database.Routed (db : Database) : Prop :=
  ∀ shard, ∀ row ∈ (db.messages (.shard shard)).rows, row.Routed shard

/-- So it is with the rows that are still to be copied. -/
def Database.LegacyFits (db : Database) : Prop :=
  db.migrated = none → ∀ row ∈ (db.messages .control).rows, row.PrefixFits

namespace Call

def NamesClaims : Call → Prop
  | .release .. | .renewClaim .. | .delivered .. | .deliveredBatch _ | .failed ..
  | .dropClaimed .. => True
  | _ => False

def Makes : Call → EnqueueInput → Prop
  | .enqueue _ topic _ _, input => input.topic = topic ∧ ∃ uuid, input.id = newMessageId topic uuid
  | .enqueueBatch items, input => input ∈ items
  | _, _ => False

/-- The inputs of a batch have identifiers made for their topics, as the writer
makes them. -/
def Issued : Call → Prop
  | .enqueueBatch items => ∀ item ∈ items, ∃ uuid, item.id = newMessageId item.topic uuid
  | _ => True

end Call

/-- The store is the one the identifier names, if it names one. -/
def Aims (id : String) (store : Store) : Prop :=
  ∀ shard, messageIdShard id = some shard → store = .shard shard

/-- The messages a statement names, with the store it runs on. -/
def Action.named : Action → List (String × Store)
  | .sql (.update store (.dropClaimed _ id _))
  | .sql (.update store (.release _ id _))
  | .sql (.update store (.renew _ id _ _))
  | .sql (.update store (.deliver _ id _))
  | .sql (.update store (.fail _ _ _ id _))
  | .sql (.selectHeld store id _) => [(id, store)]
  | .sql (.deliver store _ group) => group.map fun pair => (pair.1, store)
  | _ => []

def Action.inputs : Action → List EnqueueInput
  | .sql (.enqueue _ group) => group.map (·.1)
  | _ => []

/-- What a call that ends claims or stores messages asks for: statements on the
shard an identifier names, and its own inputs. -/
def Call.Directs (call : Call) (_ : Path) (request : Action) : Prop :=
  (call.NamesClaims → ∀ named ∈ request.named, Aims named.1 named.2) ∧
    (call.Enqueues → ∀ input ∈ request.inputs, call.Makes input)

/-! ## Where the calls aim -/

namespace Db

/-- The statements that end or renew claims run on the shard the identifier
names. -/
def Aimed (_ : Path) (request : Action) : Prop :=
  ∀ named ∈ request.named, Aims named.1 named.2

theorem aimed_of_unnamed {path : Path} {request : Action} (unnamed : request.named = []) :
    Aimed path request := by
  intro named member
  rw [unnamed] at member
  cases member

theorem aimed_of_one {path : Path} {request : Action} {id : String} {store : Store}
    (one : request.named = [(id, store)]) (aims : Aims id store) :
    Aimed path request := by
  intro named member
  rw [one, List.mem_singleton] at member
  rw [member]
  exact aims

theorem guided_unnamed_sql {statement : Sql} (unnamed : (Action.sql statement).named = []) :
    Guided (fun _ => True) Aimed (sql statement).run :=
  guided_sql grows_true fun _ _ => aimed_of_unnamed unnamed

theorem guided_aimed_now : Guided (fun _ => True) Aimed (access .now).run :=
  guided_access grows_true fun _ _ => aimed_of_unnamed rfl

variable (id : String)

/-- The shard that is found for an identifier is the one it names, if it names
one. -/
theorem aims_shardIndexForId (path : Path) : Ensures Aimed
    (fun _ outcome =>
      ∀ found, outcome = .ok found → ∀ shard, found = some shard → Aims id (.shard shard))
    path (shardIndexForId id).run := by
  unfold shardIndexForId
  split
  · next shard names =>
    rintro _ ⟨⟩ _ ⟨⟩ other otherNames
    rw [names, Option.some.injEq] at otherNames
    rw [otherNames]
  · next unnamed =>
    have lookups : Guided (fun _ => True) Aimed
        (firstSome
          (fun shard => do
            let found ← sql (.selectId (.shard shard) id)
            pure (found.map fun _ => shard))
          allShards).run :=
      guided_firstSome fun shard _ =>
        guided_exceptBind (guided_unnamed_sql rfl) fun _ => guided_pure _
    refine (lookups path trivial).weaken ?_
    intro _ _ _ found _ shard _ other names
    rw [unnamed] at names
    cases names

theorem aimed_locate {Result : Type} {continuation : Option ShardIndex → Db Result}
    (missing : Guided (fun _ => True) Aimed (continuation none).run)
    (onward :
      ∀ shard, Aims id (.shard shard) →
        Guided (fun _ => True) Aimed (continuation (some shard)).run) :
    Guided (fun _ => True) Aimed (shardIndexForId id >>= continuation).run := by
  intro path _
  rw [Program.ensures_exceptBind]
  refine (aims_shardIndexForId id path).weaken fun reached outcome aims => ?_
  cases outcome with
  | error => trivial
  | ok found =>
    cases found with
    | none => exact missing reached trivial
    | some shard => exact onward shard (aims _ rfl shard rfl) reached trivial

theorem aimed_release (lease : String) :
    Guided (fun _ => True) Aimed (release id lease).run := by
  refine aimed_locate id (guided_pure _) fun shard aims => ?_
  refine guided_exceptBind guided_aimed_now fun now => ?_
  refine guided_exceptBind ?_ fun _ => guided_pure _
  exact guided_sql grows_true fun _ _ => aimed_of_one rfl aims

theorem aimed_renewClaim (lease : String) (visibility : Nat) :
    Guided (fun _ => True) Aimed (renewClaim id lease visibility).run := by
  refine aimed_locate id (guided_pure _) fun shard aims => ?_
  refine guided_exceptBind guided_aimed_now fun now => ?_
  split
  · exact guided_throw _
  · refine guided_exceptBind ?_ fun _ => guided_pure _
    exact guided_sql grows_true fun _ _ => aimed_of_one rfl aims

theorem aimed_dropClaimed (lease error : String) :
    Guided (fun _ => True) Aimed (dropClaimed id lease error).run := by
  refine aimed_locate id (guided_pure _) fun shard aims => ?_
  refine guided_exceptBind ?_ fun held => ?_
  · exact guided_sql grows_true fun _ _ => aimed_of_one rfl aims
  cases held with
  | none => exact guided_pure _
  | some =>
    refine guided_exceptBind ?_ fun dropped => ?_
    · exact guided_sql grows_true fun _ _ => aimed_of_one rfl aims
    split
    · exact guided_pure _
    · refine guided_exceptBind ?_ fun _ => guided_pure _
      exact guided_exceptBind guided_aimed_now fun _ => guided_unnamed_sql rfl

theorem aimed_failed (lease error : String) (maxAttempts : Int) :
    Guided (fun _ => True) Aimed (failed id lease error maxAttempts).run := by
  refine aimed_locate id (guided_pure _) fun shard aims => ?_
  refine guided_exceptBind ?_ fun held => ?_
  · exact guided_sql grows_true fun _ _ => aimed_of_one rfl aims
  cases held with
  | none => exact guided_pure _
  | some =>
    refine guided_exceptBind guided_aimed_now fun now => ?_
    refine guided_exceptBind ?_ fun ended => ?_
    · exact guided_sql grows_true fun _ _ => aimed_of_one rfl aims
    split
    · exact guided_pure _
    · split
      · refine guided_exceptBind ?_ fun _ => guided_pure _
        exact guided_exceptBind guided_aimed_now fun _ => guided_unnamed_sql rfl
      · exact guided_pure _

theorem aimed_deliverShard (now : Nat) (shard : ShardIndex) {group : List Ack}
    (placed : ∀ ack ∈ group, Aims ack.id (.shard shard)) :
    Guided (fun _ => True) Aimed (deliverShard now shard group).run := by
  unfold deliverShard
  split
  · exact guided_pure _
  · refine guided_exceptBind ?_ fun _ => guided_pure _
    refine guided_sql grows_true fun _ _ named member => ?_
    obtain ⟨_, listed, rfl⟩ := List.mem_map.mp member
    obtain ⟨ack, given, rfl⟩ := List.mem_map.mp listed
    exact placed ack given

theorem aimed_deliveredBatch (messages : List (String × String)) :
    Guided (fun _ => True) Aimed (deliveredBatch messages).run := by
  intro path _
  rw [deliveredBatch, Program.ensures_exceptBind]
  have located :=
    ensures_forEach
      (fun ack (_ : ack ∈ acksOf messages) path => aims_shardIndexForId ack.id path) path
  refine located.weaken fun reached outcome places => ?_
  cases outcome with
  | error => trivial
  | ok shards =>
    refine (guided_exceptBind guided_aimed_now fun now => ?_ : Guided (fun _ => True) Aimed _)
      reached trivial
    refine guided_exceptBind (guided_forEach fun shard _ => ?_) fun ended => ?_
    · refine aimed_deliverShard now shard fun ack member => ?_
      exact List.forall₂_zip (places shards rfl) (mem_groupOf.mp member) shard rfl
    · refine guided_exceptBind (guided_exceptBind ?_ fun _ => guided_pure _) fun _ => guided_pure _
      exact guided_forEach fun _ _ => guided_access grows_true fun _ _ => aimed_of_unnamed rfl

theorem stores_enqueueBatch (items : List EnqueueInput) :
    Guided (fun _ => True) (fun _ request => ∀ input ∈ request.inputs, input ∈ items)
      (enqueueBatch items).run := by
  refine guided_exceptBind (guided_forEach fun shard _ => ?_) fun stored => ?_
  · unfold enqueueShard
    split
    · exact guided_pure _
    · refine guided_exceptBind (guided_forEach fun _ _ => ?_) fun times => ?_
      · exact guided_access grows_true fun _ _ => nofun
      refine guided_exceptBind ?_ fun _ => guided_pure _
      refine guided_sql grows_true fun _ _ input member => ?_
      obtain ⟨_, listed, rfl⟩ := List.mem_map.mp member
      obtain ⟨placed, kept, same⟩ := List.mem_map.mp (List.of_mem_zip listed).1
      rw [← same]
      exact List.fst_mem_of_mem_zipIdx (List.mem_of_mem_filter kept)
  · refine guided_exceptBind (guided_exceptBind ?_ fun _ => guided_pure _) fun _ => guided_pure _
    exact guided_forEach fun _ _ => guided_access grows_true fun _ _ => nofun

end Db

variable {call : Call}

private theorem directs_of_aimed {Result : Type} {program : Db Result} {convert : Result → Value}
    (ends : ¬ call.Enqueues) (aimed : Guided (fun _ => True) Db.Aimed program.run) :
    Guided (fun _ => True) call.Directs (convert <$> program).run := by
  refine guided_map fun path _ => (aimed path trivial).mono fun _ _ aims => ?_
  exact ⟨fun _ => aims, fun enqueues => (ends enqueues).elim⟩

private theorem directs_of_stores {Result : Type} {program : Db Result} {convert : Result → Value}
    (stores : ¬ call.NamesClaims) (made :
      Guided (fun _ => True) (fun _ request => ∀ input ∈ request.inputs, call.Makes input)
        program.run) :
    Guided (fun _ => True) call.Directs (convert <$> program).run := by
  refine guided_map fun path _ => (made path trivial).mono fun _ _ inputs => ?_
  exact ⟨fun ends => (stores ends).elim, fun _ => inputs⟩

theorem Call.directs_body (validJson : String → Bool) (call : Call) :
    Guided (fun _ => True) call.Directs (call.body validJson).run := by
  by_cases ends : call.NamesClaims
  · cases call with
    | release id lease => exact directs_of_aimed nofun (Db.aimed_release id lease)
    | renewClaim id lease visibility =>
      exact directs_of_aimed nofun (Db.aimed_renewClaim id lease visibility)
    | delivered =>
      refine directs_of_aimed nofun ?_
      exact guided_exceptBind (Db.aimed_deliveredBatch _) fun _ => guided_pure _
    | deliveredBatch messages => exact directs_of_aimed nofun (Db.aimed_deliveredBatch messages)
    | failed id lease error maxAttempts =>
      exact directs_of_aimed nofun (Db.aimed_failed id lease error maxAttempts)
    | dropClaimed id lease error =>
      exact directs_of_aimed nofun (Db.aimed_dropClaimed id lease error)
    | _ => exact ends.elim
  by_cases enqueues : call.Enqueues
  · cases call with
    | enqueue =>
      refine directs_of_stores nofun ?_
      refine guided_exceptBind ?_ fun uuid => ?_
      · exact Db.guided_access (fun _ _ _ => trivial) fun _ _ => nofun
      refine guided_exceptBind ?_ fun results => ?_
      · refine fun path _ => (Db.stores_enqueueBatch _ path trivial).mono ?_
        intro _ _ inputs input member
        obtain rfl := List.mem_singleton.mp (inputs input member)
        exact ⟨rfl, uuid, rfl⟩
      · split
        · exact guided_pure _
        · exact guided_throw _
    | enqueueBatch items => exact directs_of_stores nofun (Db.stores_enqueueBatch items)
    | _ => exact enqueues.elim
  · intro path _
    refine (Program.ensures_of_extends fun _ _ _ => trivial).mono fun _ _ _ => ?_
    exact ⟨fun holds => (ends holds).elim, fun holds => (enqueues holds).elim⟩

/-! ## The invariant -/

theorem Call.Makes.id_eq {input : EnqueueInput} (issued : call.Issued) (makes : call.Makes input) :
    ∃ uuid, input.id = newMessageId input.topic uuid := by
  cases call with
  | enqueue =>
    obtain ⟨sameTopic, uuid, made⟩ := makes
    exact ⟨uuid, sameTopic ▸ made⟩
  | enqueueBatch => exact issued input makes
  | _ => exact makes.elim

namespace MessageRow

variable {row : MessageRow}

theorem Routed.of_toMessage_eq {moved : MessageRow} {shard : ShardIndex} (routed : row.Routed shard)
    (same : moved.toMessage = row.toMessage) : moved.Routed shard := by
  unfold Routed
  rw [same]
  exact routed

theorem PrefixFits.of_toMessage_eq {moved : MessageRow} (fits : row.PrefixFits)
    (same : moved.toMessage = row.toMessage) : moved.PrefixFits := by
  unfold PrefixFits
  rw [same]
  exact fits

theorem routed_migrated_iff :
    ({ row with id := Db.migratedId row } : MessageRow).Routed (topicShard row.topic) ↔
      row.PrefixFits := by
  change (topicShard row.topic = topicShard row.topic ∧
    messageIdShard (Db.migratedId row) = some (topicShard row.topic)) ↔ row.PrefixFits
  rw [eq_self, true_and]
  unfold Db.migratedId PrefixFits
  cases named : messageIdShard row.id with
  | none => simp [messageIdShard_prefixedMessageId]
  | some => simp [named]

end MessageRow

namespace Trace

variable {initial db : Database} {history : List Entry}

theorem prefixFits (fits : ∀ row ∈ (initial.messages .control).rows, row.PrefixFits)
    (trace : Trace initial history db) : ∀ row ∈ (db.messages .control).rows, row.PrefixFits := by
  induction trace with
  | start => exact fits
  | restart _ ih => exact ih
  | act _ _ effect may ih =>
    intro row member
    obtain ⟨stored, listed, rfl | rfl⟩ := effect.control_cases may.1 member
    · exact ih _ listed
    · exact (ih stored listed).of_toMessage_eq rfl

theorem routed_act {entry : Entry} (fits : initial.LegacyFits) (act : Act initial history entry)
    (unmarked : ∀ store row, entry.request = .sql (.copy store row) → initial.migrated = none)
    (directs : entry.call.Directs (ownPath entry.thread history) entry.request)
    (issued : entry.call.Issued) (routed : entry.before.Routed) :
    entry.after.Routed := by
  obtain ⟨trace, effect, may⟩ := act
  intro shard row member
  rcases effect.rows_after member with ⟨stored, listed, moves⟩ | created
  · exact (routed shard stored listed).of_toMessage_eq moves.toMessage_eq
  have allowed := may.1
  cases created with
  | enqueued group item asked listed =>
    rw [asked] at allowed directs
    have given : item.1 ∈ (Action.sql (.enqueue (.shard shard) group)).inputs :=
      List.mem_map_of_mem listed
    obtain ⟨uuid, made⟩ := (directs.2 allowed.1 item.1 given).id_eq issued
    have placed : shard = topicShard item.1.topic := Store.shard.inj (allowed.2 item listed)
    refine ⟨placed.symm, ?_⟩
    change messageIdShard item.1.id = some shard
    rw [made, placed]
    exact messageIdShard_prefixedMessageId _ uuid
  | copied _ asked =>
    have grounded := may.2
    rw [asked] at allowed grounded
    obtain ⟨newer, listing, older, source, split, stored, _, rfl⟩ := trace.copied_source grounded
    subst split
    have placed : shard = topicShard source.topic := Store.shard.inj allowed.2
    rw [placed]
    exact MessageRow.routed_migrated_iff.mpr
      (trace.cut.earlier.prefixFits (fits (unmarked _ _ asked)) source stored)

end Trace

/-- A statement of a call that ends or renews claims runs on the shard that
holds the message it names. -/
def ReachesRow (entry : Entry) : Prop :=
  entry.call.NamesClaims → ∀ named ∈ entry.request.named, ∀ shard,
      ∀ row ∈ (entry.before.messages (.shard shard)).rows, row.id = named.1 → named.2 = .shard shard

theorem reachesRow_of_routed {entry : Entry} {path : Path}
    (directs : entry.call.Directs path entry.request) (routed : entry.before.Routed) :
    ReachesRow entry := by
  intro ends named member shard row stored same
  refine directs.1 ends named member shard ?_
  rw [← same]
  exact (routed shard row stored).2

theorem MessageRow.Routed.located {row : MessageRow} {shard : ShardIndex}
    (routed : row.Routed shard) :
    Db.shardIndexForId row.id = pure (some shard) := by
  unfold Db.shardIndexForId
  rw [routed.2]

def RoutedRun (initial : Database) (current : Database) (history : List Entry) : Prop :=
  Trace initial history current ∧ Unmarked initial current history ∧
    ((∀ entry ∈ history, entry.call.Issued) → current.Routed ∧ ∀ entry ∈ history, ReachesRow entry)

theorem RoutedRun.act {initial : Database} {entry : Entry} {history : List Entry}
    {choice : Choice} (fits : initial.LegacyFits) (run : RoutedRun initial entry.before history)
    (performed : perform choice entry.before entry.request = some (entry.answer, entry.after))
    (may : StartUpMay entry.call (ownPath entry.thread history) entry.request)
    (directs : entry.call.Directs (ownPath entry.thread history) entry.request) :
    RoutedRun initial entry.after (entry :: history) := by
  have effect := perform_effect performed
  obtain ⟨earlier, unmarked, kept⟩ := run
  refine ⟨.act entry earlier effect may.1, unmarked.act performed, fun allIssued => ?_⟩
  obtain ⟨issued, olderIssued⟩ := List.forall_mem_cons.mp allIssued
  obtain ⟨routed, reached⟩ := kept olderIssued
  refine ⟨Trace.routed_act fits ⟨earlier, effect, may.1⟩ ?_ directs issued routed,
    List.forall_mem_cons.mpr ⟨reachesRow_of_routed directs routed, reached⟩⟩
  intro store row asked
  have allowed := may.1.1
  have walked := may.2
  rw [asked] at allowed walked
  obtain ⟨looking, listed, _, found⟩ :=
    exists_performed_of_mem_ownPath (walked allowed.1).1.1
  exact unmarked.2 looking listed found

theorem routedRun_of_schedule {validJson : String → Bool} {initial : Database}
    {events : List BrokerEvent} {pool : Broker} (routed : initial.Routed)
    (fits : initial.LegacyFits) (scheduled : schedule validJson initial events = some pool) :
    RoutedRun initial pool.shared pool.history := by
  have programs : ∀ call,
      Ensures (fun path request => StartUpMay call path request ∧ call.Directs path request)
        (fun path outcome => StartUpReturns call path outcome ∧ True) []
        ((databaseComponent validJson).program call) :=
    fun call =>
      (startUp_programs validJson call).and ((call.directs_body validJson).ensures trivial)
  refine Pool.history_induction programs (RoutedRun initial) ?_ ?_ ?_ scheduled
  · intro entry history choice run performed allowed
    exact run.act fits performed allowed.1 allowed.2
  · intro current history run
    exact ⟨.restart run.1, run.2⟩
  · exact ⟨.start, ⟨id, List.forall_mem_nil _⟩, fun _ => ⟨routed, List.forall_mem_nil _⟩⟩

/-- Shard routing: if the rows a data directory starts with are routed, and it is
migrated or its legacy identifiers that look prefixed name the shard of their topic,
then in every run of the broker's calls every row is routed, its shard is found from its
identifier, and the calls that end or renew a claim reach the claimed row. -/
theorem messages_routed {validJson : String → Bool} {initial : Database}
    {events : List BrokerEvent} {pool : Broker} (routed : initial.Routed)
    (fits : initial.LegacyFits) (issued : ∀ call, .spawn call ∈ events → call.Issued)
    (scheduled : schedule validJson initial events = some pool) :
    pool.shared.Routed ∧ (∀ shard, ∀ row ∈ (pool.shared.messages (.shard shard)).rows,
        Db.shardIndexForId row.id = pure (some shard)) ∧
      ∀ entry ∈ pool.history, ReachesRow entry := by
  obtain ⟨kept, reached⟩ :=
    (routedRun_of_schedule routed fits scheduled).2.2 (Pool.performed_of_spawned issued scheduled)
  exact ⟨kept, fun shard row member => (kept shard row member).located, reached⟩

/-! ## Upgrading a directory with one message -/

namespace Routing

/-- A pending message of the topic `jobs`, as a release without shards left it. -/
def legacyMessage (id : String) : MessageRow :=
  ⟨⟨id, none, "jobs", [104, 105], "\x7b\x7d", 1⟩, .pending, 0, 1, none, none, none⟩

def legacyDirectory (id : String) : Database :=
  Database.empty.setMessages .control
    { rows := [legacyMessage id]
      primaryNodup := List.nodup_singleton _
      alternateNodup := List.nodup_nil }

/-- The first start-up copies the message, a consumer claims it and acknowledges
it. -/
def upgradeAndAcknowledge (id : String) : List BrokerEvent :=
  .spawn .connect :: List.replicate 18 (.advance 0 {}) ++
    .advance 0 { order := [id] } :: List.replicate 28 (.advance 0 {}) ++
    [.spawn (.claimBatchForTopic "jobs" second 1),
      .advance 1 { clock := 7 }, .advance 1 { uuid := "lease-1" },
      .advance 1 { order := [Db.migratedId (legacyMessage id)] },
      .spawn (.delivered (Db.migratedId (legacyMessage id)) "lease-1"),
      .advance 2 { clock := 8 }, .advance 2 {}]

/-- What the claim and the acknowledgement returned, newest first. -/
def answers (pool : Broker) : List Outcome :=
  pool.finished.map (·.result)

theorem issued_upgradeAndAcknowledge (id : String) :
    ∀ call, .spawn call ∈ upgradeAndAcknowledge id → call.Issued := by
  intro call member
  simp only [upgradeAndAcknowledge, List.cons_append, List.mem_cons, List.mem_append,
    List.mem_replicate, List.not_mem_nil, PoolEvent.spawn.injEq, reduceCtorEq,
    and_false, or_false, false_or] at member
  rcases member with rfl | rfl | rfl <;> trivial

end Routing

/-- A legacy message with a plain identifier is acknowledged. -/
theorem messages_routed_upgrade :
    (Routing.legacyDirectory "x").Routed ∧ (Routing.legacyDirectory "x").LegacyFits ∧ ∃ pool,
        schedule (fun _ => true) (Routing.legacyDirectory "x")
            (Routing.upgradeAndAcknowledge "x" ++ [.advance 2 {}]) = some pool ∧
          (Routing.answers pool).head? = some (.ok (.flag true)) ∧
          pool.shared.Routed ∧
          (∀ shard, ∀ row ∈ (pool.shared.messages (.shard shard)).rows,
            Db.shardIndexForId row.id = pure (some shard)) ∧
          ∀ entry ∈ pool.history, ReachesRow entry := by
  have routed : (Routing.legacyDirectory "x").Routed := by
    intro shard row member
    cases member
  have fits : (Routing.legacyDirectory "x").LegacyFits := by
    intro _ row member
    obtain rfl := List.mem_singleton.mp member
    exact .inl (by decide +kernel)
  refine ⟨routed, fits, ?_⟩
  refine (exists_some_of_check (by decide +kernel)).imp fun pool reached =>
    ⟨reached.1, reached.2, messages_routed routed fits (fun call member => ?_) reached.1⟩
  rcases List.mem_append.mp member with planned | last
  · exact Routing.issued_upgradeAndAcknowledge "x" call planned
  · cases List.mem_singleton.mp last

/-- A legacy identifier that looks prefixed with another shard is kept: the
message is copied to the shard of its topic and claimed there, but its
acknowledgement goes to the shard of the prefix, so it is refused and the message
stays claimed. -/
theorem messages_misrouted : (Routing.legacyDirectory "s05-x").Routed ∧ (∀ call,
    .spawn call ∈ Routing.upgradeAndAcknowledge "s05-x" → call.Issued) ∧
      ∃ pool, schedule (fun _ => true) (Routing.legacyDirectory "s05-x")
          (Routing.upgradeAndAcknowledge "s05-x") = some pool ∧
          (∃ row ∈ (pool.shared.messages (.shard (topicShard "jobs"))).rows,
            row.id = "s05-x" ∧ row.status = .processing ∧ row.lease = some "lease-1") ∧
          messageIdShard "s05-x" = some 5 ∧ topicShard "jobs" ≠ 5 ∧
          (Routing.answers pool).head? = some (.ok (.flag false)) := by
  refine ⟨?_, Routing.issued_upgradeAndAcknowledge "s05-x", ?_⟩
  · intro shard row member
    cases member
  · exact exists_some_of_check (by decide +kernel)

end CanglingBroker
