import CanglingBroker.Database.Requests

/-!
# What an action does to the stored messages

`Effect` says once what each action can do to the message tables and to the
drawn identifiers, with the answer it gives.  `Moves` reads it row by row: a
stored row stays as it is, is rewritten by the statement's `SET` list, or is
removed; a new row comes from an enqueue or from the migration.
-/

namespace CanglingBroker

open Foundation

/-- The outcome of an action, as far as messages and drawn identifiers go. -/
inductive Effect (before : Database) :
    (request : Action) → Reply request → Database → Prop
  | updated (store : Store) (statement : Update) (picked : List String)
      (admitted : statement.Admits (before.messages store) picked) :
      Effect before (.sql (.update store statement))
        (.ok (statement.execute picked (before.messages store)).1)
        (before.setMessages store (statement.execute picked (before.messages store)).2)
  | delivered (store : Store) (now : Nat) (group : List (String × String)) :
      Effect before (.sql (.deliver store now group))
        (.ok (deliverGroup now group (before.messages store)).1)
        (before.setMessages store (deliverGroup now group (before.messages store)).2)
  | enqueued (store : Store) (group : List (EnqueueInput × Nat))
      (results : List (String × Bool)) (table : MessageTable)
      (accepted : enqueueGroup group (before.messages store) = .ok (results, table)) :
      Effect before (.sql (.enqueue store group)) (.ok results) (before.setMessages store table)
  | copied (store : Store) (row : MessageRow) :
      Effect before (.sql (.copy store row)) (.ok ())
        (before.setMessages store ((before.messages store).insertOrIgnore row))
  | removed (store : Store) (removal : Removal) :
      Effect before (.sql (.remove store removal))
        (.ok ((before.messages store).rows.countP removal.guard))
        (before.setMessages store ((before.messages store).delete removal.guard))
  | held (store : Store) (id lease : String) :
      Effect before (.sql (.selectHeld store id lease))
        (.ok ((before.messages store).rows.find? (·.held id lease))) before
  | listed (store : Store) (order : List String) :
      Effect before (.sql (.selectAll store))
        (.ok (arrange order (before.messages store).rows)) before
  | drawn (uuid : String) (fresh : uuid ∉ before.issued) :
      Effect before (.access .newUuid) uuid { before with issued := uuid :: before.issued }
  | refused (statement : Sql) (problem : DbError) :
      Effect before (.sql statement) (.error problem) before
  | other (request : Action) (answer : Reply request) (after : Database)
      (harmless : Call.Harmless request) (notDrawn : request ≠ .access .newUuid)
      (unread : ∀ store id lease, request ≠ .sql (.selectHeld store id lease))
      (unlisted : ∀ store, request ≠ .sql (.selectAll store))
      (sameMessages : after.messages = before.messages)
      (sameIssued : after.issued = before.issued) :
      Effect before request answer after

variable {before after : Database} {choice : Choice}

/-- What a statement leaves alone: a harmless one every message table, any one the cache, and
all but two the catalogue. -/
theorem Sql.execute_kept {statement : Sql} {answer : statement.Answer}
    (executed : statement.execute choice before = some (.ok (answer, after))) :
    after.issued = before.issued ∧ after.cache = before.cache ∧
      (Call.Harmless (.sql statement) → after.messages = before.messages) ∧
      (after.topicStats = before.topicStats ∨
        (∃ update, statement = .stats update ∧ after.topicStats = update.apply before) ∨
        ∃ topics, statement = .deleteIdle topics ∧
          after.topicStats = (deleteIdleRows topics before.topicStats).2) := by
  cases statement with
  | stats update =>
    cases executed
    exact ⟨rfl, rfl, fun _ => rfl, .inr (.inl ⟨update, rfl, rfl⟩)⟩
  | deleteIdle topics =>
    cases executed
    exact ⟨rfl, rfl, fun _ => rfl, .inr (.inr ⟨topics, rfl, rfl⟩)⟩
  | update | enqueue =>
    simp only [Sql.execute] at executed
    split at executed <;> cases executed
    exact ⟨rfl, rfl, False.elim, .inl rfl⟩
  | deliver | copy | remove =>
    cases executed
    exact ⟨rfl, rfl, False.elim, .inl rfl⟩
  | recordMigration | insertConsumer | selectReady | readyTopics | selectAll | selectTopics
  | selectEphemeral | selectIdle | updateConsumer | touchConsumer =>
    simp only [Sql.execute] at executed
    split at executed <;> cases executed
    all_goals exact ⟨rfl, rfl, fun _ => rfl, .inl rfl⟩
  | selectId | selectHeld | queueDepths | selectMigration | selectStats | selectConfigs
  | deleteConsumer | purgeConsumers =>
    cases executed
    exact ⟨rfl, rfl, fun _ => rfl, .inl rfl⟩

private theorem Access.execute_other {access : Access}
    {answer : access.Answer} (notDrawn : access ≠ .newUuid)
    (executed : access.execute choice before = some (answer, after)) :
    after.messages = before.messages ∧ after.issued = before.issued := by
  cases access with
  | newUuid => exact absurd rfl notDrawn
  | now | nextTurn | cacheGet | cacheInsert | cacheRemove | openCache | recordStats | takeStats
  | restoreStats => cases executed; exact ⟨rfl, rfl⟩

private theorem Sql.effect {statement : Sql} {answer : statement.Answer}
    (executed : statement.execute choice before = some (.ok (answer, after))) :
    Effect before (.sql statement) (.ok answer) after := by
  cases statement with
  | update store statement =>
    simp only [Sql.execute] at executed
    split at executed
    · next admitted =>
      cases executed
      exact .updated store statement choice.order admitted
    · cases executed
  | deliver store now group =>
    cases executed
    exact .delivered store now group
  | enqueue store group =>
    simp only [Sql.execute] at executed
    split at executed
    · cases executed
    · next accepted =>
      cases executed
      exact .enqueued store group _ _ accepted
  | copy store row =>
    cases executed
    exact .copied store row
  | remove store removal =>
    cases executed
    exact .removed store removal
  | selectHeld store id lease =>
    cases executed
    exact .held store id lease
  | selectAll store =>
    simp only [Sql.execute] at executed
    split at executed <;> cases executed
    exact .listed store choice.order
  | _ =>
    obtain ⟨sameIssued, _, sameMessages, _⟩ := Sql.execute_kept executed
    exact .other _ _ _ trivial (by simp) (by simp) (by simp) (sameMessages trivial) sameIssued

variable {request : Action}

/-- Every performed action has one of the listed effects. -/
theorem perform_effect
    {answer : Reply request} (performed : perform choice before request = some (answer, after)) :
    Effect before request answer after := by
  cases request with
  | sql statement =>
    simp only [perform] at performed
    split at performed
    · cases performed
      exact .refused statement _
    · split at performed
      · cases performed
      · cases performed
        exact .refused statement _
      · next executed =>
        cases performed
        exact Sql.effect executed
  | access access =>
    by_cases draws : access = .newUuid
    · subst draws
      simp only [perform, Access.execute] at performed
      split at performed
      · cases performed
      · next fresh =>
        cases performed
        exact .drawn choice.uuid fresh
    · have same := Access.execute_other draws performed
      exact .other _ _ _ trivial (by simpa using draws) (by simp) (by simp) same.1 same.2

/-! ## Row by row -/

/-- What an action can make of a stored row, short of removing it. -/
inductive Moves (request : Action) (store : Store) (row : MessageRow) :
    MessageRow → Prop
  | same : Moves request store row row
  | updated (statement : Update) (picked : List String)
      (asked : request = .sql (.update store statement))
      (matched : statement.guard picked row = true) :
      Moves request store row (statement.set row)
  | delivered (now : Nat) (group : List (String × String))
      (asked : request = .sql (.deliver store now group))
      (presented : row.presented group = true) :
      Moves request store row (row.acknowledged now)

/-- Where a new row comes from. -/
inductive Created (request : Action) (store : Store) : MessageRow → Prop
  | enqueued (group : List (EnqueueInput × Nat)) (item : EnqueueInput × Nat)
      (asked : request = .sql (.enqueue store group)) (listed : item ∈ group) :
      Created request store (item.1.row item.2)
  | copied (row : MessageRow) (asked : request = .sql (.copy store row)) :
      Created request store row

/-- What an action does to one table it writes. -/
inductive TableEffect (store : Store) (table : MessageTable) :
    Action → MessageTable → Prop
  | updated (statement : Update) (picked : List String)
      (admitted : statement.Admits table picked) :
      TableEffect store table (.sql (.update store statement)) (statement.execute picked table).2
  | delivered (now : Nat) (group : List (String × String)) :
      TableEffect store table (.sql (.deliver store now group)) (deliverGroup now group table).2
  | enqueued (group : List (EnqueueInput × Nat))
      (results : List (String × Bool)) (stored : MessageTable)
      (accepted : enqueueGroup group table = .ok (results, stored)) :
      TableEffect store table (.sql (.enqueue store group)) stored
  | copied (row : MessageRow) :
      TableEffect store table (.sql (.copy store row)) (table.insertOrIgnore row)
  | removed (removal : Removal) :
      TableEffect store table (.sql (.remove store removal)) (table.delete removal.guard)

private theorem messages_setMessages {store target : Store} {table : MessageTable}
    (effect : TableEffect target (before.messages target) request table) :
    (before.setMessages target table).messages store = before.messages store ∨
      TableEffect store (before.messages store) request
        ((before.setMessages target table).messages store) := by
  by_cases same : store = target
  · subst same
    rw [Database.setMessages_messages_self]
    exact .inr effect
  · exact .inl (Database.setMessages_messages_of_ne same table before)

namespace Effect

variable {before after : Database} {request : Action} {answer : Reply request}

theorem messages_cases (effect : Effect before request answer after) (store : Store) :
    after.messages store = before.messages store ∨ TableEffect store (before.messages store) request
        (after.messages store) := by
  cases effect with
  | updated _ statement picked admitted =>
    exact messages_setMessages (.updated statement picked admitted)
  | delivered _ now group => exact messages_setMessages (.delivered now group)
  | enqueued _ group results table accepted =>
    exact messages_setMessages (.enqueued group results table accepted)
  | copied _ row => exact messages_setMessages (.copied row)
  | removed _ removal => exact messages_setMessages (.removed removal)
  | held | listed | drawn | refused => exact .inl rfl
  | other _ _ _ _ _ _ _ sameMessages =>
    rw [sameMessages]
    exact .inl rfl

end Effect

private theorem moves_rewrite (store : Store) (statement : Update) (picked : List String)
    (row : MessageRow) :
    Moves (.sql (.update store statement)) store row (statement.rewrite picked row) := by
  unfold Update.rewrite
  split
  · next matched => exact .updated statement picked rfl matched
  · exact .same

private theorem moves_acknowledge (store : Store) (now : Nat) (group : List (String × String))
    (row : MessageRow) :
    Moves (.sql (.deliver store now group)) store row
      (if row.presented group then row.acknowledged now else row) := by
  split
  · next presented => exact .delivered now group rfl presented
  · exact .same

namespace Effect

variable {before after : Database} {request : Action} {answer : Reply request}
  {store : Store} {row : MessageRow}

theorem rows_after (effect : Effect before request answer after)
    (member : row ∈ (after.messages store).rows) :
    (∃ stored ∈ (before.messages store).rows, Moves request store stored row) ∨
      Created request store row := by
  rcases effect.messages_cases store with same | written
  · rw [same] at member
    exact .inl ⟨row, member, .same⟩
  · revert member
    generalize after.messages store = table at written
    intro member
    cases written with
    | updated statement picked =>
      obtain ⟨stored, listed, rfl⟩ := Update.mem_execute.mp member
      exact .inl ⟨stored, listed, moves_rewrite store statement picked stored⟩
    | delivered now group =>
      rw [deliverGroup_rows] at member
      obtain ⟨stored, listed, rfl⟩ := List.mem_map.mp member
      exact .inl ⟨stored, listed, moves_acknowledge store now group stored⟩
    | enqueued group _ _ accepted =>
      rcases (enqueueGroup_rows accepted).2 row member with old | ⟨item, listed, rfl⟩
      · exact .inl ⟨row, old, .same⟩
      · exact .inr (.enqueued group item rfl listed)
    | copied =>
      rcases Table.mem_of_mem_insertOrIgnore member with old | ⟨rfl, _⟩
      · exact .inl ⟨row, old, .same⟩
      · exact .inr (.copied row rfl)
    | removed => exact .inl ⟨row, (Table.mem_delete.mp member).1, .same⟩

/-- Every stored row is there after an action, moved, or was removed by it. -/
theorem rows_before (effect : Effect before request answer after)
    (member : row ∈ (before.messages store).rows) :
    (∃ moved ∈ (after.messages store).rows, Moves request store row moved) ∨
      ∃ removal, request = .sql (.remove store removal) := by
  rcases effect.messages_cases store with same | written
  · rw [same]
    exact .inl ⟨row, member, .same⟩
  · generalize after.messages store = table at written ⊢
    cases written with
    | updated statement picked =>
      exact .inl
        ⟨statement.rewrite picked row,
          Update.mem_execute.mpr ⟨row, member, rfl⟩,
          moves_rewrite store statement picked row⟩
    | delivered now group =>
      refine .inl ⟨_, ?_, moves_acknowledge store now group row⟩
      rw [deliverGroup_rows]
      exact List.mem_map_of_mem member
    | enqueued _ _ _ accepted =>
      exact .inl ⟨row, (enqueueGroup_rows accepted).1 row member, .same⟩
    | copied =>
      exact .inl ⟨row, Table.mem_insertOrIgnore_of_mem member, .same⟩
    | removed removal => exact .inr ⟨removal, rfl⟩

end Effect

theorem Moves.toMessage_eq {store : Store} {row moved : MessageRow}
    (moves : Moves request store row moved) :
    moved.toMessage = row.toMessage := by
  cases moves with
  | same => rfl
  | updated statement => exact statement.set_toMessage row
  | delivered => rfl

end CanglingBroker
