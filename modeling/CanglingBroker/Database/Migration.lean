import CanglingBroker.Database.Trace

/-!
# Migration of legacy messages

`connect` resets the interrupted claims of the legacy table, copies its rows into the shards
one statement at a time and then writes a marker; it can be killed after any statement.
`connect_walks` is what it must have done before each statement, `Upgraded` the invariant of
the start-ups.
-/

namespace CanglingBroker

open Foundation
open Program (Ensures Triple Ends Grows triple_exceptBind triple_map)

/-- The row after a start-up has reset an interrupted claim. -/
def MessageRow.recovered (row : MessageRow) : MessageRow :=
  if row.status = .processing then
    { row with status := .pending, lease := none }
  else
    row

/-- The copy of a legacy row in the shard of its topic. -/
def MessageRow.migrated (row : MessageRow) : MessageRow :=
  { row.recovered with id := prefixedMessageId (topicShard row.topic) row.id }

/-! ## The path of a start-up -/

def listing (rows : List MessageRow) : Exchange Action Reply :=
  ⟨.sql (.selectAll .control), .ok rows⟩

def copying (store : Store) (row : MessageRow) : Exchange Action Reply :=
  ⟨.sql (.copy store row), .ok ()⟩

def copyingOf (source : MessageRow) : Exchange Action Reply :=
  copying (.shard (topicShard source.topic)) { source with id := Db.migratedId source }

def Unrecorded (path : Path) : Prop :=
  ∀ copied answer, ⟨.sql (.recordMigration copied), answer⟩ ∉ path

/-- The call has found no marker, and has not tried to write it. -/
def Awaits (path : Path) : Prop :=
  ⟨.sql .selectMigration, .ok none⟩ ∈ path ∧ Unrecorded path

variable {exchange : Exchange Action Reply} {path : Path}

theorem Unrecorded.cons (unrecorded : Unrecorded path)
    (other : ∀ copied, exchange.request ≠ .sql (.recordMigration copied)) :
    Unrecorded (exchange :: path) := by
  intro copied answer member
  rcases List.mem_cons.mp member with rfl | earlier
  · exact other copied rfl
  · exact unrecorded copied answer earlier

theorem Awaits.cons (awaits : Awaits path)
    (other : ∀ copied, exchange.request ≠ .sql (.recordMigration copied)) :
    Awaits (exchange :: path) :=
  ⟨List.mem_cons_of_mem exchange awaits.1, awaits.2.cons other⟩

theorem Recovered.cons (exchange : Exchange Action Reply) (recovered : Recovered path) :
    Recovered (exchange :: path) :=
  recovered.imp fun _ member => List.mem_cons_of_mem exchange member

/-- What a start-up has done before a statement of the migration. -/
def Connects (path : Path) : Action → Prop
  | .sql (.selectAll .control) => Recovered path
  | .sql (.copy store row) =>
    Awaits path ∧ ∃ rows, ∃ source ∈ rows,
        listing rows ∈ path ∧ copying store row = copyingOf source
  | .sql (.selectId store id) =>
    Awaits path ∧ ∃ source, copyingOf source ∈ path ∧
        store = .shard (topicShard source.topic) ∧ id = Db.migratedId source
  | .sql (.recordMigration _) =>
    Awaits path ∧ ∃ rows, listing rows ∈ path ∧ ∀ source ∈ rows, copyingOf source ∈ path
  | _ => True

/-- A start-up fails when a statement fails, or when a copy is not found. -/
def StartFailed (problem : DbError) (path : Path) : Prop :=
  (∃ statement, ⟨.sql statement, .error problem⟩ ∈ path) ∨
    ∃ store id, ⟨.sql (.selectId store id), .ok none⟩ ∈ path

def Marked (path : Path) : Prop :=
  (∃ copied, ⟨.sql .selectMigration, .ok (some copied)⟩ ∈ path) ∨
    ∃ copied, ⟨.sql (.recordMigration copied), .ok ()⟩ ∈ path

namespace Db

variable {pre : Path → Prop} {before : Path → Action → Prop}

theorem startFailed_statement {statement : Sql} (path : Path) (problem : DbError) :
    StartFailed problem (⟨.sql statement, .error problem⟩ :: path) :=
  .inl ⟨statement, .head _⟩

theorem triple_beside {statement : Sql} (beside : ∀ path, before path (.sql statement))
    (kept : ∀ path answer, pre path → pre (⟨.sql statement, answer⟩ :: path)) :
    Triple before pre (sql statement).run (Ends StartFailed fun _ => pre) :=
  triple_sql (fun path _ => beside path) (fun path _ start => kept path _ start)
    fun path problem _ => startFailed_statement path problem

/-- The copies of the rows gone through are on the path. -/
def Copying (rows seen : List MessageRow) (path : Path) : Prop :=
  Awaits path ∧ listing rows ∈ path ∧ ∀ source ∈ seen, copyingOf source ∈ path

theorem walks_migrateRow {rows seen : List MessageRow} {source : MessageRow}
    (listed : source ∈ rows) :
    Triple Connects (Copying rows seen) (migrateRow source).run
      (Ends StartFailed fun _ => Copying rows (seen ++ [source])) := by
  have copied : Triple Connects (Copying rows seen)
      (sql (.copy (.shard (topicShard source.topic)) { source with id := migratedId source })).run
      (Ends StartFailed fun _ => Copying rows (seen ++ [source])) := by
    refine triple_sql ?_ ?_ fun path problem _ => startFailed_statement path problem
    · rintro path ⟨awaits, wereListed, _⟩
      exact ⟨awaits, rows, source, listed, wereListed, rfl⟩
    · rintro path answer ⟨awaits, wereListed, made⟩
      refine ⟨awaits.cons nofun, .tail _ wereListed, ?_⟩
      intro row member
      rcases List.mem_append.mp member with earlier | last
      · exact .tail _ (made row earlier)
      · rw [List.mem_singleton.mp last]
        exact .head _
  refine triple_exceptBind copied fun _ => ?_
  have checked : Triple Connects (Copying rows (seen ++ [source]))
      (sql (.selectId (.shard (topicShard source.topic)) (migratedId source))).run
      (Ends StartFailed fun found path =>
        Copying rows (seen ++ [source]) path ∧ (found = none →
            ⟨.sql (.selectId (.shard (topicShard source.topic)) (migratedId source)),
              .ok none⟩ ∈ path)) := by
    refine triple_sql ?_ ?_ fun path problem _ => startFailed_statement path problem
    · rintro path ⟨awaits, _, made⟩
      exact ⟨awaits, source, made source (List.mem_append_right seen (.head _)), rfl, rfl⟩
    · rintro path answer ⟨awaits, wereListed, made⟩
      refine ⟨⟨awaits.cons nofun, .tail _ wereListed, fun row member =>
        .tail _ (made row member)⟩, ?_⟩
      rintro rfl
      exact .head _
  refine triple_exceptBind checked fun found => ?_
  cases found with
  | some => exact fun path start => start.1
  | none => exact fun path start => .inr ⟨_, _, start.2 rfl⟩

/-- What the start-up knows when it has looked for the marker. -/
def Looked : Option Nat → Path → Prop
  | none, path => Recovered path ∧ Awaits path
  | some _, path => Marked path

theorem walks_selectMigration : Triple Connects (fun path => Recovered path ∧ Unrecorded path)
    (sql .selectMigration).run (Ends StartFailed Looked) := by
  refine triple_sql (fun _ _ => trivial) ?_ fun path problem _ => startFailed_statement path problem
  rintro path complete ⟨recovered, unrecorded⟩
  cases complete with
  | none => exact ⟨recovered.cons _, .head _, unrecorded.cons nofun⟩
  | some copied => exact .inl ⟨copied, .head _⟩

theorem walks_migrateLegacyMessages : Triple Connects (fun path => Recovered path ∧ Unrecorded path)
    migrateLegacyMessages.run (Ends StartFailed fun _ => Marked) := by
  refine triple_exceptBind walks_selectMigration fun complete => ?_
  cases complete with
  | some => exact fun path marked => marked
  | none =>
    have read : Triple Connects (Looked none) (sql (.selectAll .control)).run
        (Ends StartFailed fun rows => Copying rows []) := by
      refine triple_sql (fun path start => start.1) ?_ fun path problem _ =>
        startFailed_statement path problem
      exact fun path rows start => ⟨start.2.cons nofun, .head _, nofun⟩
    refine triple_exceptBind read fun rows => ?_
    refine triple_exceptBind (triple_forEach fun source listed seen => walks_migrateRow listed)
      fun _ => ?_
    refine triple_sql ?_ ?_ fun path problem _ => startFailed_statement path problem
    · rintro path ⟨awaits, wereListed, made⟩
      exact ⟨awaits, rows, wereListed, made⟩
    · exact fun path _ _ => .inr ⟨_, .head _⟩

theorem Marked.cons {path : Path} (exchange : Exchange Action Reply) (marked : Marked path) :
    Marked (exchange :: path) :=
  marked.imp (fun found => found.imp fun _ => List.mem_cons_of_mem exchange)
    fun written => written.imp fun _ => List.mem_cons_of_mem exchange

/-- What a start-up has done before each of its statements, and when it
returns. -/
theorem connect_walks :
    Triple Connects Unrecorded connect.run (Ends StartFailed fun _ => Marked) := by
  have reset : Triple Connects Unrecorded (sql (.update .control .recover)).run
      (Ends StartFailed fun _ path => Recovered path ∧ Unrecorded path) := by
    refine triple_sql (fun _ _ => trivial) ?_ fun path problem _ =>
      startFailed_statement path problem
    exact fun path affected unrecorded => ⟨⟨affected, .head _⟩, unrecorded.cons nofun⟩
  -- what follows the migration keeps what it has left on the path
  have beside : ∀ {statement : Sql}, (∀ path, Connects path (.sql statement)) →
      Triple Connects Marked (sql statement).run (Ends StartFailed fun _ => Marked) :=
    fun free => triple_beside free fun path answer => Marked.cons _
  have loaded : Triple Connects Marked loadQueueDepths.run (Ends StartFailed fun _ => Marked) :=
    triple_exceptBind (triple_forEach_kept fun _ _ => beside fun _ => trivial)
      fun _ _ marked => marked
  refine triple_exceptBind reset fun _ => ?_
  refine triple_exceptBind (triple_forEach_kept fun shard _ => ?_) fun _ => ?_
  · exact
      triple_beside (fun _ => trivial) fun path answer start =>
        ⟨start.1.cons _, start.2.cons nofun⟩
  refine triple_exceptBind walks_migrateLegacyMessages fun _ => ?_
  refine triple_exceptBind (triple_access (fun _ _ => trivial) fun path now => Marked.cons _)
    fun now => ?_
  refine triple_exceptBind (beside fun _ => trivial) fun _ => ?_
  refine triple_exceptBind (beside fun _ => trivial) fun _ => ?_
  refine triple_exceptBind (beside fun _ => trivial) fun _ => ?_
  refine triple_exceptBind (beside fun _ => trivial) fun _ => ?_
  refine triple_exceptBind loaded fun depths => ?_
  refine triple_exceptBind (beside fun _ => trivial) fun _ => ?_
  refine triple_exceptBind (triple_forEach_kept fun _ _ => beside fun _ => trivial) fun _ => ?_
  refine triple_exceptBind (beside fun _ => trivial) fun configs => ?_
  exact triple_access (fun _ _ => trivial) fun path _ => Marked.cons _

end Db

/-! ## Legacy rows and their copies -/

theorem prefixedMessageId_injective {shard : ShardIndex} {left right : String}
    (same : prefixedMessageId shard left = prefixedMessageId shard right) : left = right := by
  unfold prefixedMessageId at same
  exact String.append_right_inj _ |>.mp same

namespace MessageRow

variable {row : MessageRow}

@[simp]
theorem recovered_toMessage : row.recovered.toMessage = row.toMessage := by
  unfold recovered
  split <;> rfl

theorem recovered_status_ne : row.recovered.status ≠ .processing := by
  unfold recovered
  split
  · simp
  · next unclaimed => exact unclaimed

theorem recovered_of_unclaimed (unclaimed : row.status ≠ .processing) : row.recovered = row :=
  if_neg unclaimed

@[simp]
theorem recovered_recovered : row.recovered.recovered = row.recovered :=
  recovered_of_unclaimed recovered_status_ne

theorem rewrite_recover (picked : List String) :
    Update.recover.rewrite picked row = row.recovered := by
  simp [Update.rewrite, Update.guard, Update.set, recovered]

theorem migrated_status_ne : row.migrated.status ≠ .processing :=
  @recovered_status_ne row

theorem copyingOf_recovered (plain : messageIdShard row.id = none) :
    copyingOf row.recovered = copying (.shard (topicShard row.topic)) row.migrated := by
  have sameId : row.recovered.id = row.id := congrArg Message.id recovered_toMessage
  have sameTopic : row.recovered.topic = row.topic := congrArg Message.topic recovered_toMessage
  have made : Db.migratedId row.recovered = prefixedMessageId (topicShard row.topic) row.id := by
    unfold Db.migratedId
    rw [sameId, plain, sameTopic]
  simp only [copyingOf, migrated, made, sameTopic]

end MessageRow

/-- Copies that clash in a shard are of the same row. -/
theorem eq_of_clash {legacy : MessageTable} {stored new : MessageRow}
    (storedListed : stored ∈ legacy.rows) (newListed : new ∈ legacy.rows)
    (sameShard : topicShard stored.topic = topicShard new.topic)
    (clash :
      Table.Clash (fun row : MessageRow => row.id)
        (fun row : MessageRow => row.idempotencyKey) stored.migrated new.migrated) :
    stored = new := by
  have keys : ∀ row : MessageRow, row.migrated.idempotencyKey = row.idempotencyKey := by
    intro row
    change row.recovered.idempotencyKey = row.idempotencyKey
    rw [MessageRow.recovered_toMessage]
  rcases clash with sameId | ⟨keyed, sameKey⟩
  · have same :
        prefixedMessageId (topicShard stored.topic) stored.id =
          prefixedMessageId (topicShard new.topic) new.id := sameId
    rw [sameShard] at same
    exact legacy.eq_of_primary_eq storedListed newListed (prefixedMessageId_injective same)
  · dsimp only at keyed sameKey
    rw [keys] at keyed
    rw [keys, keys] at sameKey
    obtain ⟨key, isKey⟩ := Option.ne_none_iff_exists'.mp keyed
    exact legacy.eq_of_alternate_eq storedListed newListed (sameKey.trans isKey) isKey

/-! ## What one action does -/

variable {before after : Database}

theorem execute_of_perform {choice : Choice} {statement : Sql} {answer : statement.Answer}
    (performed : perform choice before (.sql statement) = some (.ok answer, after)) :
    statement.execute choice before = some (.ok (answer, after)) := by
  simp only [perform] at performed
  split at performed
  · cases performed
  split at performed
  · cases performed
  · cases performed
  · next executed =>
    cases performed
    exact executed

variable {request : Action}

/-- Only the migration writes its marker, and only once. -/
theorem migrated_of_perform {choice : Choice}
    {answer : Reply request} (performed : perform choice before request = some (answer, after)) :
    after.migrated = before.migrated ∨
      ∃ copied, request = .sql (.recordMigration copied) ∧ before.migrated = none ∧
        after.messages = before.messages := by
  cases request with
  | access accessed =>
    refine .inl ?_
    cases accessed with
    | newUuid =>
      simp only [perform, Access.execute] at performed
      split at performed <;> cases performed
      rfl
    | _ =>
      cases performed
      rfl
  | sql statement =>
    simp only [perform] at performed
    split at performed
    · cases performed
      exact .inl rfl
    split at performed
    · cases performed
    · cases performed
      exact .inl rfl
    · next executed =>
      cases performed
      cases statement with
      | recordMigration copied =>
        simp only [Sql.execute] at executed
        split at executed
        · next unmarked =>
          cases executed
          exact .inr ⟨copied, rfl, unmarked, rfl⟩
        · cases executed
      | _ =>
        refine .inl ?_
        simp only [Sql.execute] at executed
        first
          | (cases executed; rfl)
          | (split at executed <;> cases executed <;> rfl)

theorem unmarked_of_looked {entry : Entry} {choice : Choice}
    (performed : perform choice entry.before entry.request = some (entry.answer, entry.after))
    (looked : entry.exchange = ⟨.sql .selectMigration, .ok none⟩) :
    entry.before.migrated = none ∧ entry.after = entry.before := by
  obtain ⟨_, call, request, answer, before, after⟩ := entry
  cases looked
  have executed := execute_of_perform performed
  rw [Sql.execute, Option.some.injEq, Except.ok.injEq, Prod.mk.injEq] at executed
  exact ⟨executed.1, executed.2.symm⟩

/-- Who finds no marker is in a directory that began without one. -/
def Unmarked (initial current : Database) (history : List Entry) : Prop :=
  (current.migrated = none → initial.migrated = none) ∧
    ∀ entry ∈ history, entry.exchange = ⟨.sql .selectMigration, .ok none⟩ → initial.migrated = none

theorem Unmarked.act {initial : Database} {entry : Entry} {history : List Entry} {choice : Choice}
    (unmarked : Unmarked initial entry.before history)
    (performed : perform choice entry.before entry.request = some (entry.answer, entry.after)) :
    Unmarked initial entry.after (entry :: history) := by
  constructor
  · intro none
    rcases migrated_of_perform performed with same | ⟨_, _, before, _⟩
    · exact unmarked.1 (same.symm.trans none)
    · exact unmarked.1 before
  · exact List.forall_mem_cons.mpr
      ⟨fun looked => unmarked.1 (unmarked_of_looked performed looked).1, unmarked.2⟩

theorem Moves.eq_of_connect {store : Store} {row moved : MessageRow}
    (moves : Moves request store row moved) (allowed : Call.connect.Allows request)
    (unclaimed : row.status ≠ .processing) : moved = row := by
  cases moves with
  | same => rfl
  | updated statement _ asked matched =>
    subst asked
    cases statement with
    | recover => exact absurd (of_decide_eq_true matched) unclaimed
    | _ => simp [Call.Allows, Call.Updates, Call.Claims] at allowed
  | delivered _ group asked presented =>
    subst asked
    have none : ∀ pair ∈ group, False := fun pair member => List.not_mem_nil (allowed.1 pair member)
    have empty := List.eq_nil_iff_forall_not_mem.mpr none
    subst empty
    simp [MessageRow.presented] at presented

theorem Created.of_connect {store : Store} {row : MessageRow}
    (created : Created request store row) (allowed : Call.connect.Allows request) :
    request = .sql (.copy store row) := by
  cases created with
  | enqueued _ _ asked =>
    subst asked
    exact allowed.1.elim
  | copied _ asked => exact asked

/-- What an action can make of the legacy table: it stays, or its claims are
reset. -/
theorem Effect.control_rows {answer : Reply request}
    {call : Call} (effect : Effect before request answer after) (allowed : call.Allows request) :
    (after.messages .control).rows = (before.messages .control).rows ∨
      (after.messages .control).rows =
        (before.messages .control).rows.map MessageRow.recovered := by
  rcases effect.messages_cases .control with same | written
  · exact .inl (congrArg _ same)
  generalize after.messages .control = table at written ⊢
  cases written with
  | updated _ picked =>
    obtain rfl := Call.Updates.control allowed
    refine .inr (List.map_congr_left fun row _ => ?_)
    exact MessageRow.rewrite_recover picked
  | delivered | removed => exact absurd rfl allowed.2
  | enqueued group _ _ accepted =>
    cases group with
    | nil =>
      cases accepted
      exact .inl rfl
    | cons item => exact Store.noConfusion (allowed.2 item (.head _))
  | copied => exact Store.noConfusion allowed.2

theorem arrange_perm {order : List String} {table : MessageTable}
    (complete : order.Perm (table.rows.map (·.id))) :
    (arrange order table.rows).Perm table.rows := by
  have finds :
      ∀ row ∈ table.rows, table.rows.find? (fun other => other.id = row.id) = some row := by
    intro row member
    obtain ⟨found, shape⟩ :
        ∃ found, table.rows.find? (fun other => decide (other.id = row.id)) = some found :=
      Option.isSome_iff_exists.mp (List.find?_isSome.mpr ⟨row, member, by simp⟩)
    have same : found.id = row.id := by simpa using List.find?_some shape
    rw [shape, table.eq_of_primary_eq (List.mem_of_find?_eq_some shape) member same]
  have whole : (table.rows.map (·.id)).filterMap
      (fun id => table.rows.find? fun row => row.id = id) = table.rows := by
    rw [List.filterMap_map]
    exact (List.filterMap_congr finds).trans List.filterMap_some
  have arranged := complete.filterMap fun id => table.rows.find? fun row => row.id = id
  rw [whole] at arranged
  exact arranged

/-! ## The invariant of the start-ups -/

/-- Each shard holds exactly the copies of the legacy rows of its topics. -/
def Database.HoldsCopies (db : Database) (legacy : MessageTable) : Prop :=
  ∀ shard, (db.messages (.shard shard)).rows.Perm
      ((legacy.rows.filter fun row => topicShard row.topic = shard).map MessageRow.migrated)

def CopiesBeforeMarker (history : List Entry) : Prop :=
  history.Pairwise fun later earlier =>
    earlier.after.migrated ≠ none → ∀ store row, later.request ≠ .sql (.copy store row)

/-- What the start-ups keep of the state and of what was done. -/
structure Upgraded (legacy : MessageTable) (db : Database) (history : List Entry) : Prop where
  control :
    (db.messages .control).rows = legacy.rows ∨
      (db.messages .control).rows = legacy.rows.map MessageRow.recovered
  reset :
    ∀ entry ∈ history, ∀ affected : List MessageRow,
      entry.exchange = ⟨.sql (.update .control .recover), .ok affected⟩ →
        (db.messages .control).rows = legacy.rows.map MessageRow.recovered
  listed :
    ∀ entry ∈ history, entry.call = .connect → ∀ rows, entry.exchange = listing rows →
      rows.Perm (legacy.rows.map MessageRow.recovered)
  copies :
    db.migrated = none → ∀ shard, ∀ row ∈ (db.messages (.shard shard)).rows,
      ∃ source ∈ legacy.rows, topicShard source.topic = shard ∧ row = source.migrated
  kept :
    db.migrated = none → ∀ entry ∈ history, ∀ shard row,
      entry.exchange = copying (.shard shard) row → row ∈ (db.messages (.shard shard)).rows
  found :
    ∀ entry ∈ history, entry.call = .connect → ∀ store id,
      entry.exchange ≠ ⟨.sql (.selectId store id), .ok none⟩
  marked :
    ∀ entry ∈ history, entry.before.migrated ≠ none ∨ entry.after.migrated ≠ none →
      db.migrated ≠ none
  looked :
    ∀ entry ∈ history, ∀ copied : Nat,
      (entry.exchange = ⟨.sql .selectMigration, .ok (some copied)⟩ ∨
        entry.exchange = ⟨.sql (.recordMigration copied), .ok ()⟩) →
        entry.after.migrated ≠ none
  completed :
    ∀ entry ∈ history, entry.before.migrated = none → entry.after.migrated ≠ none →
      entry.after.HoldsCopies legacy
  once : CopiesBeforeMarker history

structure StartUpAct (entry : Entry) (history : List Entry) : Prop where
  performed :
    ∃ choice, perform choice entry.before entry.request = some (entry.answer, entry.after)
  allowed : entry.call.Allows entry.request
  connects :
    entry.call = .connect → Connects (ownPath entry.thread history) entry.request
  consistent : ∀ older ∈ history, older.thread = entry.thread → older.call = entry.call
  early : entry.before.migrated = none → entry.call = .connect
  awaited :
    entry.call = .connect → Awaits (ownPath entry.thread history) → entry.before.migrated = none

namespace Upgraded

variable {legacy : MessageTable} {entry : Entry} {history : List Entry}

section Act

variable (plain : ∀ row ∈ legacy.rows, messageIdShard row.id = none)
  (upgraded : Upgraded legacy entry.before history) (act : StartUpAct entry history)

include upgraded act

theorem perm_of_listing (connecting : entry.call = .connect) {rows : List MessageRow}
    (onPath : listing rows ∈ ownPath entry.thread history) :
    rows.Perm (legacy.rows.map MessageRow.recovered) := by
  obtain ⟨older, member, own, asked⟩ := exists_performed_of_mem_ownPath onPath
  have sameCall := act.consistent older member own
  exact upgraded.listed older member (sameCall.trans connecting) rows asked

omit act in
theorem mem_of_copying
    (unmarked : entry.before.migrated = none) {shard : ShardIndex} {row : MessageRow}
    (onPath : copying (.shard shard) row ∈ ownPath entry.thread history) :
    row ∈ (entry.before.messages (.shard shard)).rows := by
  obtain ⟨older, member, _, asked⟩ := exists_performed_of_mem_ownPath onPath
  exact upgraded.kept unmarked older member shard row asked

include plain in
theorem source_of_copy
    {store : Store} {row : MessageRow} (asked : entry.request = .sql (.copy store row)) :
    entry.before.migrated = none ∧ ∃ source ∈ legacy.rows,
        store = .shard (topicShard source.topic) ∧ row = source.migrated := by
  have allowed := act.allowed
  rw [asked] at allowed
  have connects := act.connects allowed.1
  rw [asked] at connects
  obtain ⟨awaits, rows, source, inRows, wereListed, copied⟩ := connects
  refine ⟨act.awaited allowed.1 awaits, ?_⟩
  have complete := perm_of_listing upgraded act allowed.1 wereListed
  obtain ⟨legacyRow, isLegacy, rfl⟩ := List.mem_map.mp (complete.subset inRows)
  rw [MessageRow.copyingOf_recovered (plain legacyRow isLegacy)] at copied
  have same := congrArg Exchange.request copied
  simp only [copying, Action.sql.injEq, Sql.copy.injEq] at same
  exact ⟨legacyRow, isLegacy, same.1, same.2⟩

omit upgraded in
theorem unmarked_before (unmarked : entry.after.migrated = none) :
    entry.before.migrated = none := by
  obtain ⟨choice, performed⟩ := act.performed
  rcases migrated_of_perform performed with same | ⟨_, _, wasUnmarked, _⟩
  · exact same.symm.trans unmarked
  · exact wasUnmarked

theorem control_act :
    (entry.after.messages .control).rows = legacy.rows ∨
      (entry.after.messages .control).rows = legacy.rows.map MessageRow.recovered := by
  obtain ⟨choice, performed⟩ := act.performed
  rcases (perform_effect performed).control_rows act.allowed with same | reset
  · rw [same]
    exact upgraded.control
  · refine .inr ?_
    rw [reset]
    rcases upgraded.control with original | wasReset
    · rw [original]
    · rw [wasReset, List.map_map]
      exact List.map_congr_left fun row _ => MessageRow.recovered_recovered

theorem reset_act :
    ∀ older ∈ entry :: history, ∀ affected : List MessageRow,
      older.exchange = ⟨.sql (.update .control .recover), .ok affected⟩ →
        (entry.after.messages .control).rows = legacy.rows.map MessageRow.recovered := by
  intro older member affected asked
  obtain ⟨choice, performed⟩ := act.performed
  have effect := perform_effect performed
  have again : (legacy.rows.map MessageRow.recovered).map MessageRow.recovered =
      legacy.rows.map MessageRow.recovered := by
    rw [List.map_map]
    exact List.map_congr_left fun row _ => MessageRow.recovered_recovered
  rcases List.mem_cons.mp member with rfl | earlier
  · -- the reset itself
    obtain ⟨thread, call, request, answer, before, after⟩ := older
    cases asked
    dsimp only at effect upgraded ⊢
    have rewritten : (after.messages .control).rows =
        (before.messages .control).rows.map MessageRow.recovered := by
      cases effect with
      | updated _ _ picked =>
        rw [Database.setMessages_messages_self]
        exact List.map_congr_left fun row _ => MessageRow.rewrite_recover picked
      | other _ _ _ harmless => exact harmless.elim
    rw [rewritten]
    rcases upgraded.control with original | wasReset
    · rw [original]
    · rw [wasReset, again]
  · have wasReset := upgraded.reset older earlier affected asked
    rcases effect.control_rows act.allowed with same | resetAgain
    · exact same.trans wasReset
    · rw [resetAgain, wasReset, again]

theorem listed_act :
    ∀ older ∈ entry :: history, older.call = .connect →
      ∀ rows, older.exchange = listing rows → rows.Perm (legacy.rows.map MessageRow.recovered) := by
  intro older member connecting rows asked
  rcases List.mem_cons.mp member with rfl | earlier
  · have connects := act.connects connecting
    obtain ⟨choice, performed⟩ := act.performed
    obtain ⟨thread, call, request, answer, before, after⟩ := older
    cases asked
    dsimp only at connects performed upgraded
    obtain ⟨affected, reset⟩ := connects
    obtain ⟨resetting, wasPerformed, _, resetAsked⟩ := exists_performed_of_mem_ownPath reset
    have table := upgraded.reset resetting wasPerformed affected resetAsked
    rw [← table]
    have executed := execute_of_perform performed
    simp only [Sql.execute] at executed
    split at executed
    · next complete =>
      cases executed
      exact arrange_perm complete
    · cases executed
  · exact upgraded.listed older earlier connecting rows asked

include plain in
theorem copies_act
    (unmarked : entry.after.migrated = none) :
    ∀ shard, ∀ row ∈ (entry.after.messages (.shard shard)).rows,
      ∃ source ∈ legacy.rows, topicShard source.topic = shard ∧ row = source.migrated := by
  intro shard row member
  have wasUnmarked := unmarked_before act unmarked
  have allowed := act.allowed
  rw [act.early wasUnmarked] at allowed
  obtain ⟨choice, performed⟩ := act.performed
  rcases (perform_effect performed).rows_after member with ⟨stored, before, moves⟩ | created
  · obtain ⟨source, isLegacy, placed, rfl⟩ := upgraded.copies wasUnmarked shard stored before
    rw [moves.eq_of_connect allowed MessageRow.migrated_status_ne]
    exact ⟨source, isLegacy, placed, rfl⟩
  · obtain ⟨_, source, isLegacy, sameStore, rfl⟩ :=
      source_of_copy plain upgraded act (created.of_connect allowed)
    exact ⟨source, isLegacy, (Store.shard.inj sameStore).symm, rfl⟩

omit upgraded act in
theorem mem_insertOrIgnore_copy {db : Database} {shard : ShardIndex} {source : MessageRow}
    (copies :
      ∀ row ∈ (db.messages (.shard shard)).rows,
        ∃ other ∈ legacy.rows, topicShard other.topic = shard ∧ row = other.migrated)
    (isLegacy : source ∈ legacy.rows) (placed : topicShard source.topic = shard) :
    source.migrated ∈ ((db.messages (.shard shard)).insertOrIgnore source.migrated).rows := by
  rw [Table.insertOrIgnore_rows]
  split
  · next conflict =>
    obtain ⟨stored, member, clash⟩ := conflict
    obtain ⟨other, otherLegacy, otherPlaced, rfl⟩ := copies stored member
    obtain rfl := eq_of_clash otherLegacy isLegacy (otherPlaced.trans placed.symm) clash
    exact member
  · exact List.mem_append_right _ (.head _)

include plain in
theorem kept_act
    (unmarked : entry.after.migrated = none) :
    ∀ older ∈ entry :: history, ∀ shard row, older.exchange = copying (.shard shard) row →
        row ∈ (entry.after.messages (.shard shard)).rows := by
  intro older member shard row asked
  have wasUnmarked := unmarked_before act unmarked
  obtain ⟨choice, performed⟩ := act.performed
  rcases List.mem_cons.mp member with rfl | earlier
  · obtain ⟨_, source, isLegacy, sameStore, rfl⟩ :=
      source_of_copy plain upgraded act (congrArg Exchange.request asked)
    have copies := upgraded.copies wasUnmarked shard
    obtain ⟨thread, call, request, answer, before, after⟩ := older
    cases asked
    have executed := execute_of_perform performed
    simp only [Sql.execute, Option.some.injEq, Except.ok.injEq, Prod.mk.injEq, true_and] at executed
    rw [← executed, Database.setMessages_messages_self]
    exact mem_insertOrIgnore_copy copies isLegacy (Store.shard.inj sameStore).symm
  · have allowed := act.allowed
    rw [act.early wasUnmarked] at allowed
    have stored := upgraded.kept wasUnmarked older earlier shard row asked
    obtain ⟨source, _, _, rfl⟩ := upgraded.copies wasUnmarked shard row stored
    rcases (perform_effect performed).rows_before stored with
      ⟨moved, after, moves⟩ | ⟨removal, removes⟩
    · rw [moves.eq_of_connect allowed MessageRow.migrated_status_ne] at after
      exact after
    · rw [removes] at allowed
      exact allowed.1.elim

theorem found_act :
    ∀ older ∈ entry :: history, older.call = .connect → ∀ store id,
      older.exchange ≠ ⟨.sql (.selectId store id), .ok none⟩ := by
  intro older member connecting store id asked
  rcases List.mem_cons.mp member with rfl | earlier
  · have connects := act.connects connecting
    have awaited := act.awaited connecting
    obtain ⟨choice, performed⟩ := act.performed
    obtain ⟨thread, call, request, answer, before, after⟩ := older
    cases asked
    obtain ⟨awaits, source, copied, rfl, rfl⟩ := connects
    have stored := mem_of_copying upgraded (awaited awaits) copied
    have executed := execute_of_perform performed
    simp only [Sql.execute, Option.some.injEq, Except.ok.injEq, Prod.mk.injEq,
      List.find?_eq_none] at executed
    exact executed.1 _ stored (by simp)
  · exact upgraded.found older earlier connecting store id asked

theorem marked_act :
    ∀ older ∈ entry :: history,
      older.before.migrated ≠ none ∨ older.after.migrated ≠ none → entry.after.migrated ≠ none := by
  intro older member wasMarked unmarked
  have wasUnmarked := unmarked_before act unmarked
  rcases List.mem_cons.mp member with rfl | earlier
  · exact wasMarked.elim (· wasUnmarked) (· unmarked)
  · exact upgraded.marked older earlier wasMarked wasUnmarked

theorem looked_act :
    ∀ older ∈ entry :: history, ∀ copied : Nat,
      (older.exchange = ⟨.sql .selectMigration, .ok (some copied)⟩ ∨
        older.exchange = ⟨.sql (.recordMigration copied), .ok ()⟩) →
        older.after.migrated ≠ none := by
  intro older member copied asked
  rcases List.mem_cons.mp member with rfl | earlier
  · obtain ⟨choice, performed⟩ := act.performed
    obtain ⟨thread, call, request, answer, before, after⟩ := older
    rcases asked with asked | asked
    · cases asked
      have executed := execute_of_perform performed
      simp only [Sql.execute, Option.some.injEq, Except.ok.injEq, Prod.mk.injEq] at executed
      rw [← executed.2, executed.1]
      exact Option.some_ne_none copied
    · cases asked
      have executed := execute_of_perform performed
      simp only [Sql.execute] at executed
      split at executed
      · simp only [Option.some.injEq, Except.ok.injEq, Prod.mk.injEq, true_and] at executed
        rw [← executed]
        exact Option.some_ne_none copied
      · cases executed
  · exact upgraded.looked older earlier copied asked

include plain in
/-- When the marker is written, the shards hold exactly the copies. -/
theorem holdsCopies_of_record (wasUnmarked : entry.before.migrated = none) {copied : Nat}
    (asked : entry.request = .sql (.recordMigration copied)) :
    entry.before.HoldsCopies legacy := by
  have connecting := act.early wasUnmarked
  have connects := act.connects connecting
  rw [asked] at connects
  obtain ⟨_, rows, wereListed, made⟩ := connects
  have complete := perm_of_listing upgraded act connecting wereListed
  intro shard
  have ids : ∀ row : MessageRow, topicShard row.topic = shard →
      row.migrated.id = prefixedMessageId shard row.id := by
    rintro row rfl
    rfl
  refine (List.perm_ext_iff_of_nodup ?_ ?_).mpr fun row => ⟨fun stored => ?_, fun isCopy => ?_⟩
  · exact (entry.before.messages (.shard shard)).primaryNodup.of_map _
  · refine List.Nodup.map_on ?_ ((legacy.primaryNodup.of_map _).filter _)
    intro left leftListed right rightListed same
    obtain ⟨leftLegacy, leftPlaced⟩ := List.mem_filter.mp leftListed
    obtain ⟨rightLegacy, rightPlaced⟩ := List.mem_filter.mp rightListed
    have sameIds := congrArg (fun row : MessageRow => row.id) same
    rw [ids left (of_decide_eq_true leftPlaced), ids right (of_decide_eq_true rightPlaced)]
      at sameIds
    exact legacy.eq_of_primary_eq leftLegacy rightLegacy (prefixedMessageId_injective sameIds)
  · obtain ⟨source, isLegacy, placed, rfl⟩ := upgraded.copies wasUnmarked shard row stored
    exact List.mem_map_of_mem (List.mem_filter.mpr ⟨isLegacy, decide_eq_true placed⟩)
  · obtain ⟨source, listed, rfl⟩ := List.mem_map.mp isCopy
    obtain ⟨isLegacy, placed⟩ := List.mem_filter.mp listed
    obtain rfl := of_decide_eq_true placed
    have inRows : source.recovered ∈ rows := complete.symm.subset (List.mem_map_of_mem isLegacy)
    have onPath := made source.recovered inRows
    rw [MessageRow.copyingOf_recovered (plain source isLegacy)] at onPath
    exact mem_of_copying upgraded wasUnmarked onPath

include plain in
theorem completed_act :
    ∀ older ∈ entry :: history, older.before.migrated = none →
      older.after.migrated ≠ none → older.after.HoldsCopies legacy := by
  intro older member wasUnmarked marked
  rcases List.mem_cons.mp member with rfl | earlier
  · obtain ⟨choice, performed⟩ := act.performed
    rcases migrated_of_perform performed with same | ⟨copied, asked, _, sameMessages⟩
    · exact absurd (same.trans wasUnmarked) marked
    · have holds := holdsCopies_of_record plain upgraded act wasUnmarked asked
      unfold Database.HoldsCopies at holds ⊢
      rw [sameMessages]
      exact holds
  · exact upgraded.completed older earlier wasUnmarked marked

include plain in
theorem once_act :
    CopiesBeforeMarker (entry :: history) := by
  refine List.pairwise_cons.mpr ⟨fun older member marked store row asked => ?_, upgraded.once⟩
  have unmarked := (source_of_copy plain upgraded act asked).1
  exact upgraded.marked older member (.inr marked) unmarked

end Act

theorem act (plain : ∀ row ∈ legacy.rows, messageIdShard row.id = none)
    (upgraded : Upgraded legacy entry.before history) (act : StartUpAct entry history) :
    Upgraded legacy entry.after (entry :: history) where
  control := control_act upgraded act
  reset := reset_act upgraded act
  listed := listed_act upgraded act
  copies := copies_act plain upgraded act
  kept := kept_act plain upgraded act
  found := found_act upgraded act
  marked := marked_act upgraded act
  looked := looked_act upgraded act
  completed := completed_act plain upgraded act
  once := once_act plain upgraded act

theorem start {initial : Database} (empty : ∀ shard, (initial.messages (.shard shard)).rows = []) :
    Upgraded (initial.messages .control) initial [] where
  control := .inl rfl
  reset := by intro entry member; cases member
  listed := by intro entry member; cases member
  copies := by
    intro _ shard row member
    rw [empty] at member
    cases member
  kept := by intro _ entry member; cases member
  found := by intro entry member; cases member
  marked := by intro entry member; cases member
  looked := by intro entry member; cases member
  completed := by intro entry member; cases member
  once := .nil

theorem restart {db : Database} (upgraded : Upgraded legacy db history) :
    Upgraded legacy db.restart history :=
  { upgraded with }

end Upgraded

/-! ## Runs of start-ups -/

/-- A start-up begins when no call is running, and the broker serves other calls
once the migration is complete. -/
def Orderly (pool : Broker) (event : BrokerEvent) : Prop :=
  ∀ call, event = .spawn call →
    if call = .connect then pool.Quiescent else pool.shared.migrated ≠ none

def StartUpMay (call : Call) (path : Path) (request : Action) : Prop :=
  call.May path request ∧ (call = .connect → Connects path request)

def StartUpReturns (call : Call) (path : Path) (outcome : Outcome) : Prop :=
  call = .connect → Ends StartFailed (fun _ => Marked) outcome path

theorem startUp_programs (validJson : String → Bool) (call : Call) :
    Ensures (StartUpMay call) (StartUpReturns call) []
      ((databaseComponent validJson).program call) := by
  have behaves := call.behaves_body validJson [] trivial
  have walks : Ensures (fun path request => call = .connect → Connects path request)
      (StartUpReturns call) [] (call.body validJson).run := by
    by_cases connecting : call = .connect
    · subst connecting
      have unrecorded : Unrecorded [] := by
        intro copied answer member
        cases member
      have walked : Triple Connects Unrecorded ((fun _ => Value.unit) <$> Db.connect).run
          (Ends StartFailed fun _ => Marked) :=
        triple_map Db.connect_walks
      exact ((walked [] unrecorded).weaken fun _ _ returned _ => returned).mono
        fun _ _ asked _ => asked
    · refine (Program.ensures_of_extends fun _ _ _ isConnect => ?_).mono fun _ _ _ isConnect => ?_
      · exact absurd isConnect connecting
      · exact absurd isConnect connecting
  exact (behaves.and walks).weaken fun _ _ returned => returned.2

structure StartUps (legacy : MessageTable) (pool : Broker) : Prop where
  accounted : Pool.Accounted StartUpMay StartUpReturns pool
  consistent : pool.Consistent
  alone :
    ∀ thread running other otherRunning,
      pool.threads thread = some running → pool.threads other = some otherRunning →
        running.call = .connect → otherRunning.call = .connect → thread = other
  early :
    pool.shared.migrated = none → ∀ thread running,
      pool.threads thread = some running → running.call = .connect
  awaiting :
    ∀ thread running, pool.threads thread = some running → running.call = .connect →
      Awaits (ownPath thread pool.history) → pool.shared.migrated = none
  upgraded : Upgraded legacy pool.shared pool.history

namespace StartUps

variable {legacy : MessageTable} {pool reached : Broker} {validJson : String → Bool}

theorem start {initial : Database} (empty : ∀ shard, (initial.messages (.shard shard)).rows = []) :
    StartUps (initial.messages .control) (Pool.start initial) where
  accounted := Pool.accounted_start initial
  consistent := Pool.consistent_start initial
  alone := by intro thread running other otherRunning isRunning; cases isRunning
  early := by intro _ thread running isRunning; cases isRunning
  awaiting := by intro thread running isRunning; cases isRunning
  upgraded := Upgraded.start empty

variable {running : Thread Call Action Reply Outcome} {entry : Entry}
  {next : Reply entry.request → Program Action Reply Outcome} {choice : Choice}

theorem startUpAct (run : StartUps legacy pool)
    (acts : Pool.Acts (databaseComponent validJson) pool choice running entry next) :
    StartUpAct entry pool.history where
  performed := ⟨choice, acts.performed⟩
  allowed := (acts.asks run.accounted).1.1
  connects := (acts.asks run.accounted).2
  consistent := fun older member own =>
    (run.consistent.running acts.found older member own).trans acts.sameCall.symm
  early := by
    rw [acts.previous, acts.sameCall]
    exact fun unmarked => run.early unmarked entry.thread running acts.found
  awaited := by
    rw [acts.previous, acts.sameCall]
    exact run.awaiting entry.thread running acts.found

/-- A start-up that has found no marker is the only one that could write it. -/
theorem unmarked_of_awaits (run : StartUps legacy pool)
    {other : Thread Call Action Reply Outcome} {thread : Nat}
    (acts : Pool.Acts (databaseComponent validJson) pool choice running entry next)
    (otherFound : pool.threads thread = some other) (connecting : other.call = .connect)
    (awaits : Awaits (ownPath thread (entry :: pool.history))) :
    entry.after.migrated = none := by
  have performed : perform choice entry.before entry.request = some (entry.answer, entry.after) :=
    acts.performed
  have previous := acts.previous
  have found := acts.found
  clear acts
  by_cases own : entry.thread = thread
  · subst own
    rw [ownPath_cons_self] at awaits
    obtain ⟨looked, unrecorded⟩ := awaits
    rcases List.mem_cons.mp looked with now | earlier
    · -- the action is the look-up itself
      obtain ⟨unmarked, same⟩ := unmarked_of_looked performed now.symm
      rwa [same]
    · have awaited : Awaits (ownPath entry.thread pool.history) :=
        ⟨earlier, fun copied answer member =>
          unrecorded copied answer (.tail _ member)⟩
      have unmarked := run.awaiting entry.thread other otherFound connecting awaited
      rcases migrated_of_perform performed with same | ⟨copied, asked, _⟩
      · rw [same, previous]
        exact unmarked
      · obtain ⟨_, call, request, answer, before, after⟩ := entry
        cases asked
        exact absurd (.head _) (unrecorded copied answer)
  · rw [ownPath_cons_of_ne own] at awaits
    have unmarked := run.awaiting thread other otherFound connecting awaits
    have isConnect := run.early unmarked entry.thread running found
    exact absurd (run.alone _ _ _ _ found otherFound isConnect connecting) own

/-- A start-up begins alone, any other call after the migration. -/
theorem spawn (run : StartUps legacy pool) {call : Call} (orderly : Orderly pool (.spawn call))
    {program : Program Action Reply Outcome} {born : Nat}
    (settled :
      reached = Pool.settle { pool with fresh := pool.fresh + 1 } pool.fresh call born
          program) (accounted : Pool.Accounted StartUpMay StartUpReturns reached)
    (consistent : reached.Consistent) :
    StartUps legacy reached := by
  subst settled
  have starts := orderly call rfl
  have running : ∀ {thread runner},
      (Pool.settle { pool with fresh := pool.fresh + 1 } pool.fresh call born
        program).threads thread = some runner →
      (thread = pool.fresh ∧ runner.call = call) ∨
        (call ≠ .connect ∧ pool.threads thread = some runner) := by
    intro thread runner isRunning
    rcases Pool.settle_running isRunning with ⟨rfl, rfl⟩ | ⟨_, before⟩
    · exact .inl ⟨rfl, rfl⟩
    · refine .inr ⟨?_, before⟩
      rintro rfl
      rw [if_pos rfl] at starts
      have idle := starts thread
      rw [before] at idle
      cases idle
  refine ⟨accounted, consistent, ?_, ?_, ?_, ?_⟩
  · intro thread runner other otherRunner isRunning otherRunning connecting otherConnecting
    rcases running isRunning with ⟨rfl, sameCall⟩ | ⟨serves, before⟩
    · rcases running otherRunning with ⟨rfl, _⟩ | ⟨serves, _⟩
      · rfl
      · exact absurd (sameCall.symm.trans connecting) serves
    · rcases running otherRunning with ⟨_, sameCall⟩ | ⟨_, otherBefore⟩
      · exact absurd (sameCall.symm.trans otherConnecting) serves
      · exact run.alone _ _ _ _ before otherBefore connecting otherConnecting
  · intro unmarked thread runner isRunning
    rw [Pool.settle_shared] at unmarked
    rcases running isRunning with ⟨_, sameCall⟩ | ⟨_, before⟩
    · rw [sameCall]
      by_contra serves
      rw [if_neg serves] at starts
      exact starts unmarked
    · exact run.early unmarked thread runner before
  · intro thread runner isRunning connecting awaits
    rw [Pool.settle_history] at awaits
    rw [Pool.settle_shared]
    rcases running isRunning with ⟨rfl, _⟩ | ⟨_, before⟩
    · rw [run.accounted.ownPath_fresh] at awaits
      cases awaits.1
    · exact run.awaiting thread runner before connecting awaits
  · rw [Pool.settle_shared, Pool.settle_history]
    exact run.upgraded

theorem step (plain : ∀ row ∈ legacy.rows, messageIdShard row.id = none)
    (run : StartUps legacy pool) {event : BrokerEvent} (orderly : Orderly pool event)
    (stepped : Pool.step (databaseComponent validJson) pool event = some reached) :
    StartUps legacy reached := by
  have accounted := Pool.accounted_step (startUp_programs validJson) run.accounted stepped
  have consistent := Pool.consistent_step run.accounted run.consistent stepped
  rcases Pool.step_cases stepped with
    ⟨call, rfl, settled⟩ | ⟨choice, running, entry, next, _, acts, rfl⟩ | ⟨_, rfl⟩
  · exact run.spawn orderly settled accounted consistent
  · have act := run.startUpAct acts
    have upgraded := run.upgraded
    rw [← acts.previous] at upgraded
    refine ⟨accounted, consistent, ?_, ?_, ?_, ?_⟩
    · intro thread runner other otherRunner isRunning otherRunning connecting otherConnecting
      obtain ⟨before, wasRunning, same⟩ := acts.runs isRunning
      obtain ⟨otherBefore, otherWas, otherSame⟩ := acts.runs otherRunning
      exact run.alone _ _ _ _ wasRunning otherWas (same.trans connecting)
        (otherSame.trans otherConnecting)
    · intro unmarked thread runner isRunning
      rw [Pool.settle_shared] at unmarked
      obtain ⟨before, wasRunning, same⟩ := acts.runs isRunning
      have wasUnmarked := Upgraded.unmarked_before act unmarked
      rw [acts.previous] at wasUnmarked
      rw [← same]
      exact run.early wasUnmarked thread before wasRunning
    · intro thread runner isRunning connecting awaits
      rw [Pool.settle_history] at awaits
      rw [Pool.settle_shared]
      obtain ⟨before, wasRunning, same⟩ := acts.runs isRunning
      exact run.unmarked_of_awaits acts wasRunning (same.trans connecting) awaits
    · rw [Pool.settle_shared, Pool.settle_history]
      exact upgraded.act plain act
  · exact
      { accounted := accounted
        consistent := consistent
        alone := by intro thread running other otherRunning isRunning; cases isRunning
        early := by intro _ thread running isRunning; cases isRunning
        awaiting := by intro thread running isRunning; cases isRunning
        upgraded := run.upgraded.restart }

/-- A start-up that returned has left the marker, or one of its statements
failed. -/
theorem returned (run : StartUps legacy pool) {entry : Finished Call Outcome}
    (returned : entry ∈ pool.finished) (connecting : entry.call = .connect) :
    match entry.result with
    | .ok _ => pool.shared.migrated ≠ none
    | .error problem =>
      ∃ failing ∈ pool.history, failing.thread = entry.thread ∧
        ∃ statement, failing.exchange = ⟨.sql statement, .error problem⟩ := by
  have ended := run.accounted.finished entry returned connecting
  cases shape : entry.result with
  | ok =>
    rw [shape] at ended
    rcases ended with ⟨copied, onPath⟩ | ⟨copied, onPath⟩
    · obtain ⟨older, member, _, asked⟩ := exists_performed_of_mem_ownPath onPath
      have marked := run.upgraded.looked older member copied (.inl asked)
      exact run.upgraded.marked older member (.inr marked)
    · obtain ⟨older, member, _, asked⟩ := exists_performed_of_mem_ownPath onPath
      have marked := run.upgraded.looked older member copied (.inr asked)
      exact run.upgraded.marked older member (.inr marked)
  | error =>
    rw [shape] at ended
    rcases ended with ⟨statement, onPath⟩ | ⟨store, id, onPath⟩
    · obtain ⟨older, member, own, asked⟩ :=
        exists_performed_of_mem_ownPath onPath
      exact ⟨older, member, own, statement, asked⟩
    · -- a copy is always found again
      obtain ⟨older, member, own, asked⟩ := exists_performed_of_mem_ownPath onPath
      have sameCall := run.consistent.finished entry returned older member own
      exact absurd asked (run.upgraded.found older member (sameCall.trans connecting) store id)

end StartUps

/-- Legacy migration is lossless and restartable.  Whatever start-ups fail or are
killed, and wherever: when the marker is written, each shard holds exactly one
copy of each legacy row of its topics, nothing is copied afterwards, the legacy
table is as it was except that interrupted claims are reset, and a start-up that
returns has left the marker unless one of its statements failed. -/
theorem legacyMigration_lossless {validJson : String → Bool} {initial : Database}
    {events : List BrokerEvent} {pool : Broker}
    (empty : ∀ shard, (initial.messages (.shard shard)).rows = [])
    (plain : ∀ row ∈ (initial.messages .control).rows, messageIdShard row.id = none)
    (orderly :
      Along (Pool.step (databaseComponent validJson)) Orderly (Pool.start initial) events)
    (scheduled : schedule validJson initial events = some pool) :
    (∀ entry ∈ pool.history,
        entry.before.migrated = none → entry.after.migrated ≠ none →
          entry.after.HoldsCopies (initial.messages .control)) ∧
      CopiesBeforeMarker pool.history ∧
      ((pool.shared.messages .control).rows = (initial.messages .control).rows ∨
        (pool.shared.messages .control).rows =
          (initial.messages .control).rows.map MessageRow.recovered) ∧
      ∀ returned ∈ pool.finished, returned.call = .connect →
        match returned.result with
        | .ok _ => pool.shared.migrated ≠ none
        | .error problem =>
          ∃ failing ∈ pool.history, failing.thread = returned.thread ∧
            ∃ statement, failing.exchange = ⟨.sql statement, .error problem⟩ := by
  have run : StartUps (initial.messages .control) pool :=
    run_invariant_along (fun run meets stepped => run.step plain meets stepped)
      (StartUps.start empty) orderly scheduled
  exact ⟨run.upgraded.completed, run.upgraded.once, run.upgraded.control,
    fun returned member connecting => run.returned member connecting⟩

/-! ## A killed and repeated upgrade -/

namespace Migration

/-- A legacy message that was being delivered when its broker was stopped. -/
def interrupted : MessageRow :=
  ⟨⟨"a", some "k", "jobs", [104, 105], "\x7b\x7d", 1⟩, .processing, 1, 2, none, none,
    some "lease-0"⟩

def done : MessageRow :=
  ⟨⟨"b", none, "t", [104], "\x7b\x7d", 1⟩, .delivered, 1, 2, none, some 3, none⟩

def legacyDirectory : Database :=
  Database.empty.setMessages .control
    { rows := [interrupted, done]
      primaryNodup := by decide
      alternateNodup := by decide }

/-- A start-up reads the table and is killed after the first copy. -/
def killed : List BrokerEvent :=
  .spawn .connect :: List.replicate 18 (.advance 0 {}) ++
    [.advance 0 { order := ["a", "b"] }, .advance 0 {}, .crash]

/-- The next one reads it in another order and goes through. -/
def completes : List BrokerEvent :=
  .spawn .connect :: List.replicate 18 (.advance 1 {}) ++
    .advance 1 { order := ["b", "a"] } :: List.replicate 30 (.advance 1 {})

def startsAgain : List BrokerEvent :=
  .spawn .connect :: List.replicate 43 (.advance 2 {})

/-- Decide whether an event is orderly. -/
def orderlyCheck (pool : Broker) : BrokerEvent → Bool
  | .spawn call =>
    if call = .connect then
      (List.range pool.fresh).all fun thread => (pool.threads thread).isNone
    else
      pool.shared.migrated.isSome
  | _ => true

theorem orderly_of_check {pool : Broker} {event : BrokerEvent}
    (accounted : Pool.Accounted StartUpMay StartUpReturns pool)
    (checked : orderlyCheck pool event = true) : Orderly pool event := by
  rintro call rfl
  rw [orderlyCheck] at checked
  split at checked
  · next connecting =>
    rw [if_pos connecting]
    intro thread
    by_contra running
    obtain ⟨runner, found⟩ := Option.ne_none_iff_exists'.mp running
    have idle :=
      List.all_eq_true.mp checked thread (List.mem_range.mpr (accounted.runningBelow found))
    rw [found] at idle
    cases idle
  · next serving =>
    rw [if_neg serving]
    exact Option.isSome_iff_ne_none.mp checked

theorem legacyDirectory_empty (shard : ShardIndex) :
    (legacyDirectory.messages (.shard shard)).rows = [] :=
  rfl

theorem legacyDirectory_plain :
    ∀ row ∈ (legacyDirectory.messages .control).rows, messageIdShard row.id = none := by
  decide +kernel

theorem orderly_of_checkAlong {events : List BrokerEvent}
    (checked :
      checkAlong (Pool.step (databaseComponent fun _ => true))
        orderlyCheck (Pool.start legacyDirectory) events = true) :
    Along (Pool.step (databaseComponent fun _ => true)) Orderly
      (Pool.start legacyDirectory) events :=
  along_of_check_of_invariant
    (fun accounted stepped =>
      Pool.accounted_step (startUp_programs fun _ => true) accounted stepped)
    (fun _ _ accounted checked => orderly_of_check accounted checked)
    (Pool.accounted_start legacyDirectory) checked

end Migration

theorem legacyMigration_lossless_killedOnce : ∃ pool,
    schedule (fun _ => true) Migration.legacyDirectory
        (Migration.killed ++ Migration.completes ++ Migration.startsAgain) = some pool ∧
      pool.finished.map Finished.result = [.ok .unit, .ok .unit] ∧
      pool.shared.migrated = some 2 ∧
      (∀ entry ∈ pool.history,
          entry.before.migrated = none → entry.after.migrated ≠ none →
            entry.after.HoldsCopies (Migration.legacyDirectory.messages .control)) ∧
      CopiesBeforeMarker pool.history := by
  obtain ⟨pool, scheduled, finished, marked⟩ : ∃ pool,
      schedule (fun _ => true) Migration.legacyDirectory
          (Migration.killed ++ Migration.completes ++ Migration.startsAgain) = some pool ∧
        pool.finished.map Finished.result = [.ok .unit, .ok .unit] ∧
        pool.shared.migrated = some 2 :=
    exists_some_of_check (by decide +kernel)
  have checked : checkAlong (Pool.step (databaseComponent fun _ => true))
      Migration.orderlyCheck (Pool.start Migration.legacyDirectory)
      (Migration.killed ++ Migration.completes ++ Migration.startsAgain) = true := by
    decide +kernel
  have lossless :=
    legacyMigration_lossless Migration.legacyDirectory_empty Migration.legacyDirectory_plain
      (Migration.orderly_of_checkAlong checked) scheduled
  exact ⟨pool, scheduled, finished, marked, lossless.1, lossless.2.1⟩

/-- A claim that was interrupted is not carried over: the legacy row is changed,
and its copy has the status and the lease after the reset. -/
theorem legacyMigration_resetsClaims : ∃ pool,
    schedule (fun _ => true) Migration.legacyDirectory
        (Migration.killed ++ Migration.completes) = some pool ∧
      pool.shared.migrated = some 2 ∧
      Migration.interrupted ∈ (Migration.legacyDirectory.messages .control).rows ∧
      Migration.interrupted ∉ (pool.shared.messages .control).rows ∧
      ∃ row ∈ (pool.shared.messages (.shard (topicShard "jobs"))).rows,
        row.id = "s13-a" ∧ row.status = .pending ∧ row.lease = none ∧
          Migration.interrupted.status = .processing ∧
          Migration.interrupted.lease = some "lease-0" :=
  exists_some_of_check (by decide +kernel)

end CanglingBroker
