import CanglingBroker.Database.Alone

/-!
# A failing `configure_topics`

`configure_topics` writes one row after the other, each followed by its cache entry, and ends
with a listing.  A statement that fails ends the call and undoes nothing: what was written
before it stays, in the catalogue and in the cache.  So the call leaves everything as it was
only where the rows it has written by then were in place already.
-/

namespace CanglingBroker

open Foundation
open Program (Ran ran_bind ran_exceptBind)

/-! ## The request -/

namespace QueueService

/-- One topic of a `ConfigureTopicsRequest`. -/
structure TopicItem where
  topic : String
  delivery : String
  persistence : String
  deriving DecidableEq, Repr

/-- The checks of one topic. -/
def parseItem (item : TopicItem) : Except String TopicConfig :=
  let topic := String.ofList (trim item.topic.toList)
  if topic = "" then
    .error "topic is required"
  else
    match DeliveryMode.parse item.delivery with
    | none => .error "delivery must be single or broadcast"
    | some delivery =>
      match PersistenceMode.parse item.persistence with
      | none => .error "persistence must be persistent or ephemeral"
      | some persistence => .ok ⟨topic, delivery, persistence⟩

/-- The checks of a request: the first problem ends them. -/
def parseItems (items : List TopicItem) : Except String (List TopicConfig) :=
  if items.isEmpty then
    .error "topics is required"
  else
    items.mapM parseItem

def configureTopics (items : List TopicItem) :
    Program Action Reply (Except String (List TopicConfig)) :=
  match parseItems items with
  | .error problem => pure (.error problem)
  | .ok configs => do
      match ← (Db.configureTopics configs).run with
      | .error _ => pure (.error "could not configure topics")
      | .ok stored => pure (.ok stored)

end QueueService

/-! ## A statement that fails -/

/-- A call on its own whose statement of a given number fails: the state carries how many
statements succeed before that. -/
def AnsweredUntil (state : Database × Nat) :
    (request : Action) → Reply request → Database × Nat → Prop
  | .sql statement, answer, after =>
    match state.2 with
    | 0 => answer = .error .statement ∧ after = state
    | more + 1 =>
      ∃ choice : Choice, choice.fails = false ∧
          perform choice state.1 (.sql statement) = some (answer, after.1) ∧
          after.2 = more
  | .access access, answer, after =>
    ∃ choice : Choice,
      perform choice state.1 (.access access) = some (answer, after.1) ∧ after.2 = state.2

/-- What one topic of `configure_topics` leaves. -/
def Database.configure (now : Nat) (config : TopicConfig) (db : Database) : Database :=
  { db with
    topicStats :=
      (StatsUpdate.configure config.topic config.delivery.asStr config.persistence.asStr
        now).apply db
    cache := db.cache.insert config.topic config }

/-- Some topics have been written, one after the other. -/
inductive Configures : List TopicConfig → Database → Database → Prop where
  | nil (db : Database) : Configures [] db db
  | cons {config : TopicConfig} {rest : List TopicConfig} {db final : Database} (now : Nat) :
      Configures rest (db.configure now config) final → Configures (config :: rest) db final

/-- The rows of the catalogue and the entries of the cache are the same. -/
def SameConfiguration (db other : Database) : Prop :=
  ∀ topic, other.topicStats.lookup topic = db.topicStats.lookup topic ∧
      other.cache.lookup topic = db.cache.lookup topic

/-- The row and the cache entry of the topic say this already. -/
def InPlace (db : Database) (config : TopicConfig) : Prop :=
  (∃ row, db.topicStats.lookup config.topic = some row ∧
    row.delivery = config.delivery.asStr ∧ row.persistence = config.persistence.asStr ∧
      row.configured = true) ∧
    db.cache.lookup config.topic = some config

def lastOf (topic : String) (configs : List TopicConfig) : Option TopicConfig :=
  configs.reverse.find? fun config => config.topic = topic

/-! ## What has been written -/

namespace Db

theorem ran_configureOne {config : TopicConfig} {db : Database} {more : Nat}
    {outcome : Except DbError Unit} {final : Database × Nat}
    (ran :
      Ran AnsweredUntil
        (do
          let now ← access .now
          sql <| .stats (.configure config.topic config.delivery.asStr config.persistence.asStr now)
          access (.cacheInsert config.topic config) : Db Unit).run
        (db, more) outcome final) :
    (more = 0 ∧ outcome = .error .statement ∧ final = (db, 0)) ∨ ∃ now left,
        more = left + 1 ∧ outcome = .ok () ∧ final = (db.configure now config, left) := by
  obtain ⟨now, ⟨_, _⟩, ⟨choice, clocked, same⟩, ranSql⟩ := ran_access_bind.mp ran
  cases clocked
  cases same
  cases more with
  | zero =>
    refine .inl ⟨rfl, ?_⟩
    rcases ran_exceptBind.mp ranSql with ⟨_, _, written, _⟩ | ⟨problem, written, rfl⟩
    · obtain ⟨failed, _⟩ := ran_sql.mp written
      cases failed
    · obtain ⟨failed, rfl⟩ := ran_sql.mp written
      cases failed
      exact ⟨rfl, rfl⟩
  | succ left =>
    refine .inr ⟨choice.clock, left, rfl, ?_⟩
    rcases ran_exceptBind.mp ranSql with ⟨_, ⟨_, _⟩, written, cached⟩ | ⟨_, written, _⟩
    · obtain ⟨other, works, performed, same⟩ := ran_sql.mp written
      rw [perform, works, if_neg Bool.false_ne_true] at performed
      cases performed
      dsimp only at same
      subst same
      obtain ⟨_, ⟨again, stored, rest⟩, rfl⟩ := ran_access.mp cached
      obtain ⟨_, _⟩ := final
      cases stored
      cases rest
      exact ⟨rfl, rfl⟩
    · obtain ⟨other, works, performed, _⟩ := ran_sql.mp written
      rw [perform, works, if_neg Bool.false_ne_true] at performed
      cases performed

theorem configures_of_ran {body : TopicConfig → Db Unit} {configs : List TopicConfig}
    (writes :
      ∀ {config db more outcome final},
        Ran AnsweredUntil (body config).run (db, more) outcome final →
          (more = 0 ∧ outcome = .error .statement ∧ final = (db, 0)) ∨ ∃ now left,
              more = left + 1 ∧ outcome = .ok () ∧ final = (db.configure now config, left)) :
    ∀ {db : Database} {more : Nat} {outcome : Except DbError (List Unit)}
      {final : Database × Nat},
      Ran AnsweredUntil (forEach body configs).run (db, more) outcome final →
        Configures (configs.take more) db final.1 := by
  induction configs with
  | nil =>
    rintro db more outcome final ⟨rfl, rfl⟩
    rw [List.take_nil]
    exact .nil _
  | cons _ _ ih =>
    intro db more outcome final ran
    rcases ran_exceptBind.mp ran with ⟨_, _, first, later⟩ | ⟨_, first, rfl⟩
    · rcases writes first with ⟨_, failed, _⟩ | ⟨now, left, rfl, _, rfl⟩
      · cases failed
      · rcases ran_exceptBind.mp later with ⟨_, _, others, rfl, rfl⟩ | ⟨_, others, rfl⟩
        · exact .cons now (ih others)
        · exact .cons now (ih others)
    · rcases writes first with ⟨rfl, _, rfl⟩ | ⟨_, _, _, succeeded, _⟩
      · exact .nil _
      · cases succeeded

theorem configures_of_failed {configs : List TopicConfig} {db : Database} {more : Nat}
    {problem : DbError} {final : Database × Nat}
    (ran : Ran AnsweredUntil (configureTopics configs).run (db, more) (.error problem) final) :
    Configures (configs.take more) db final.1 := by
  rcases ran_exceptBind.mp ran with ⟨_, ⟨written, left⟩, wrote, listed⟩ | ⟨_, failed, _⟩
  · have configured := configures_of_ran ran_configureOne wrote
    have answered := ran_sql.mp listed
    cases left with
    | zero =>
      obtain ⟨_, rfl⟩ := answered
      exact configured
    | succ =>
      obtain ⟨choice, works, performed, _⟩ := answered
      rw [perform, works, if_neg Bool.false_ne_true] at performed
      cases performed
  · exact configures_of_ran ran_configureOne failed

end Db

/-! ## What that leaves of a topic -/

/-- A configuration has been written over the row of its topic, if there was one. -/
def WrittenOver (config : TopicConfig) (before after : Option TopicStats) : Prop :=
  ∃ base : TopicStats, (∀ row, before = some row → base = row) ∧ after = some
      { base with
        delivery := config.delivery.asStr
        persistence := config.persistence.asStr
        configured := true }

variable {config : TopicConfig} {db : Database}

theorem WrittenOver.trans {earlier : TopicConfig} {before middle after : Option TopicStats}
    (first : WrittenOver earlier before middle) (second : WrittenOver config middle after) :
    WrittenOver config before after := by
  obtain ⟨base, isBase, rfl⟩ := first
  obtain ⟨other, isOther, rfl⟩ := second
  refine ⟨base, isBase, ?_⟩
  rw [isOther _ rfl]

theorem writtenOver_configure (now : Nat) (config : TopicConfig) (db : Database) :
    WrittenOver config (db.topicStats.lookup config.topic)
      ((db.configure now config).topicStats.lookup config.topic) := by
  dsimp only [Database.configure, StatsUpdate.apply, upsert]
  cases found : db.topicStats.lookup config.topic with
  | none => exact ⟨{ TopicStats.default with lastSeenAt := some now }, nofun, AList.lookup_insert _⟩
  | some row => exact ⟨row, fun other same => Option.some.inj same, AList.lookup_insert _⟩

theorem lookup_configure_of_ne {topic : String} (different : topic ≠ config.topic) (now : Nat)
    (db : Database) :
    (db.configure now config).topicStats.lookup topic = db.topicStats.lookup topic ∧
      (db.configure now config).cache.lookup topic = db.cache.lookup topic := by
  refine ⟨?_, AList.lookup_insert_ne different⟩
  dsimp only [Database.configure, StatsUpdate.apply, upsert]
  split
  · exact AList.lookup_insert_ne different
  · exact AList.lookup_insert_ne different

theorem lastOf_cons (topic : String) (config : TopicConfig) (rest : List TopicConfig) :
    lastOf topic (config :: rest) =
      (lastOf topic rest).or (if config.topic = topic then some config else none) := by
  rw [lastOf, List.reverse_cons, List.find?_append]
  simp [lastOf, List.find?_singleton]

/-- Of each topic, the last configuration counts. -/
theorem Configures.lookup {configs : List TopicConfig} {final : Database}
    (wrote : Configures configs db final) (topic : String) :
    (lastOf topic configs = none → final.topicStats.lookup topic = db.topicStats.lookup topic ∧
        final.cache.lookup topic = db.cache.lookup topic) ∧
      ∀ config, lastOf topic configs = some config →
        WrittenOver config (db.topicStats.lookup topic) (final.topicStats.lookup topic) ∧
          final.cache.lookup topic = some config := by
  induction wrote with
  | nil => exact ⟨fun _ => ⟨rfl, rfl⟩, nofun⟩
  | @cons config rest db final now _ ih =>
    obtain ⟨absent, present⟩ := ih
    rw [lastOf_cons]
    by_cases same : config.topic = topic
    · subst same
      have written := writtenOver_configure now config db
      have cached : (db.configure now config).cache.lookup config.topic = some config :=
        AList.lookup_insert _
      rw [if_pos rfl]
      cases last : lastOf config.topic rest with
      | none =>
        refine ⟨nofun, fun other isLast => ?_⟩
        cases isLast
        obtain ⟨sameRow, sameEntry⟩ := absent last
        rw [sameRow, sameEntry]
        exact ⟨written, cached⟩
      | some later =>
        refine ⟨nofun, fun other isLast => ?_⟩
        cases isLast
        obtain ⟨overwritten, entry⟩ := present later last
        exact ⟨written.trans overwritten, entry⟩
    · obtain ⟨sameRow, sameEntry⟩ := lookup_configure_of_ne (Ne.symm same) now db
      rw [if_neg same, Option.or_none, ← sameRow, ← sameEntry]
      exact ⟨absent, present⟩

theorem inPlace_iff {after : Option TopicStats}
    (written : WrittenOver config (db.topicStats.lookup config.topic) after) :
    (after = db.topicStats.lookup config.topic ∧
      some config = db.cache.lookup config.topic) ↔ InPlace db config := by
  obtain ⟨base, isBase, rfl⟩ := written
  constructor
  · rintro ⟨sameRow, sameEntry⟩
    exact ⟨⟨_, sameRow.symm, rfl, rfl, rfl⟩, sameEntry.symm⟩
  · rintro ⟨⟨row, found, delivery, persistence, configured⟩, entry⟩
    refine ⟨?_, entry.symm⟩
    rw [isBase row found, found, ← delivery, ← persistence, ← configured]

/-- A call that fails leaves everything as it was exactly when, of the topics before the
failing statement, each had its last configuration already. -/
theorem sameConfiguration_iff_of_failed {configs : List TopicConfig} {succeeding : Nat}
    {problem : DbError} {final : Database × Nat} (ran :
      Ran AnsweredUntil (Db.configureTopics configs).run (db, succeeding) (.error problem) final) :
    SameConfiguration db final.1 ↔
      ∀ config, lastOf config.topic (configs.take succeeding) = some config →
        InPlace db config := by
  have wrote := Db.configures_of_failed ran
  constructor
  · intro same config isLast
    obtain ⟨written, entry⟩ := (wrote.lookup config.topic).2 config isLast
    rw [← inPlace_iff written, ← entry]
    exact same config.topic
  · intro inPlace topic
    obtain ⟨absent, present⟩ := wrote.lookup topic
    cases last : lastOf topic (configs.take succeeding) with
    | none => exact absent last
    | some config =>
      have named : config.topic = topic := by
        simpa using List.find?_some last
      subst named
      obtain ⟨written, entry⟩ := present config last
      rw [entry]
      exact (inPlace_iff written).mpr (inPlace config last)

/-- A request that fails was refused, or its call failed. -/
theorem QueueService.failed_of_ran {items : List QueueService.TopicItem}
    {state final : Database × Nat} {status : String}
    (ran : Ran AnsweredUntil (QueueService.configureTopics items) state (.error status) final) :
    (QueueService.parseItems items = .error status ∧ final = state) ∨ ∃ configs problem,
        QueueService.parseItems items = .ok configs ∧
          Ran AnsweredUntil (Db.configureTopics configs).run state (.error problem) final := by
  unfold QueueService.configureTopics at ran
  cases parsed : QueueService.parseItems items with
  | error =>
    rw [parsed] at ran
    obtain ⟨same, rfl⟩ := ran
    cases same
    exact .inl ⟨rfl, rfl⟩
  | ok configs =>
    rw [parsed] at ran
    obtain ⟨outcome, middle, called, answered⟩ := ran_bind.mp ran
    cases outcome with
    | ok => cases answered.1
    | error problem =>
      obtain ⟨_, rfl⟩ := answered
      exact .inr ⟨configs, problem, rfl, called⟩

/-- `configure_topics` is all or nothing, with a failing statement of any number, exactly
when the topics before that statement were in place already; so is a request, which may also
be refused before the first statement. -/
theorem configureTopics_all_or_nothing_iff (db : Database) (succeeding : Nat)
    (final : Database × Nat) :
    (∀ (configs : List TopicConfig) (problem : DbError),
      Ran AnsweredUntil (Db.configureTopics configs).run (db, succeeding) (.error problem) final →
        (SameConfiguration db final.1 ↔
          ∀ config, lastOf config.topic (configs.take succeeding) = some config →
            InPlace db config)) ∧
      ∀ (items : List QueueService.TopicItem) (status : String),
        Ran AnsweredUntil (QueueService.configureTopics items) (db, succeeding)
            (.error status) final →
          (SameConfiguration db final.1 ↔ ∀ configs, QueueService.parseItems items = .ok configs →
              ∀ config, lastOf config.topic (configs.take succeeding) = some config →
                InPlace db config) := by
  refine ⟨fun configs problem ran => sameConfiguration_iff_of_failed ran, ?_⟩
  intro items status ran
  rcases QueueService.failed_of_ran ran with ⟨refused, rfl⟩ | ⟨configs, problem, parsed, called⟩
  · rw [refused]
    exact iff_of_true (fun topic => ⟨rfl, rfl⟩) nofun
  · rw [sameConfiguration_iff_of_failed called, parsed]
    constructor
    · intro inPlace others same
      cases same
      exact inPlace
    · exact fun inPlace => inPlace configs rfl

/-- The statement of the second of two topics fails. -/
theorem ran_configureTopics_second (db : Database) :
    Ran AnsweredUntil
      (Db.configureTopics [⟨"a", .single, .persistent⟩, ⟨"b", .single, .persistent⟩]).run
      (db, 1) (.error .statement) (db.configure 0 ⟨"a", .single, .persistent⟩, 0) :=
  ⟨0, (db, 1), ⟨{}, rfl, rfl⟩, .ok (), (_, 0), ⟨{}, rfl, rfl, rfl⟩, (), (_, 0),
    ⟨{}, rfl, rfl⟩, 0, (_, 0), ⟨{}, rfl, rfl⟩, .error .statement, (_, 0), ⟨rfl, rfl⟩, rfl, rfl⟩

/-- The topic that is written before the failure is configured like this already. -/
theorem configureTopics_all_or_nothing_iff_inPlace :
    let db := Database.empty.configure 5 ⟨"a", .single, .persistent⟩
    ∃ final,
      Ran AnsweredUntil
          (Db.configureTopics [⟨"a", .single, .persistent⟩, ⟨"b", .single, .persistent⟩]).run
          (db, 1) (.error .statement) final ∧
        SameConfiguration db final.1 := by
  have ran := ran_configureTopics_second (Database.empty.configure 5 ⟨"a", .single, .persistent⟩)
  refine ⟨_, ran, ((configureTopics_all_or_nothing_iff _ 1 _).1 _ _ ran).mpr ?_⟩
  intro config listed
  obtain rfl : config = ⟨"a", .single, .persistent⟩ :=
    List.mem_singleton.mp (List.mem_of_find?_eq_some listed)
  exact ⟨⟨_, rfl, rfl, rfl, rfl⟩, rfl⟩

/-- The first of two topics is written when the statement of the second one fails. -/
theorem configureTopics_leaves_first : ∃ final,
    Ran AnsweredUntil
        (Db.configureTopics [⟨"a", .single, .persistent⟩, ⟨"b", .single, .persistent⟩]).run
        (Database.empty, 1) (.error .statement) final ∧
      Database.empty.topicStats.lookup "a" = none ∧
      (final.1.topicStats.lookup "a").isSome = true ∧
      final.1.cache.lookup "a" = some ⟨"a", .single, .persistent⟩ :=
  ⟨_, ran_configureTopics_second Database.empty, rfl, rfl, rfl⟩

end CanglingBroker
