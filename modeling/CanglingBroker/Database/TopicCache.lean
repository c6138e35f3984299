import CanglingBroker.Database.Alone
import CanglingBroker.Database.Configured

/-!
# The cache of topic configurations

A call that rewrites the row of a topic touches its cache entry right after.  The invariant
is that every entry is what its row says, or is owed such an access; it can break where a
row is rewritten between the statement of a call and its access of the cache.
-/

namespace CanglingBroker

open Foundation
open Program (Ensures Guided Ran guided_exceptBind guided_pure guided_map
  guided_carry ran_exceptBind)

/-! ## What a row says -/

def configOf (stats : Dict String TopicStats) (topic : String) : TopicConfig :=
  ((stats.lookup topic).map (·.config topic)).getD (.implicit topic)

def Database.Coherent (db : Database) (topic : String) : Prop :=
  ∀ config, db.cache.lookup topic = some config → config = configOf db.topicStats topic

/-- The change leaves the two configuration columns alone. -/
def KeepsColumns (change : TopicStats → TopicStats) : Prop :=
  ∀ row, (change row).delivery = row.delivery ∧ (change row).persistence = row.persistence

theorem KeepsColumns.config {change : TopicStats → TopicStats} (keeps : KeepsColumns change)
    (topic : String) (row : TopicStats) :
    (change row).config topic = row.config topic := by
  unfold TopicStats.config
  rw [(keeps row).1, (keeps row).2]

variable {topic : String} {other : String}

theorem config_of_defaults {row : TopicStats}
    (delivery : row.delivery = TopicStats.default.delivery)
    (persistence : row.persistence = TopicStats.default.persistence) :
    row.config topic = .implicit topic := by
  unfold TopicStats.config
  rw [delivery, persistence]
  exact TopicConfig.fromColumns_implicit topic

theorem configOf_insert (stats : Dict String TopicStats) (topic other : String) (row : TopicStats) :
    configOf (stats.insert topic row) other =
      if other = topic then row.config topic else configOf stats other := by
  unfold configOf
  split
  · next same =>
    subst same
    rw [AList.lookup_insert]
    rfl
  · next different => rw [AList.lookup_insert_ne different]

/-- A row that is new or keeps its columns says what was said before. -/
theorem configOf_upsert {new : TopicStats} {onConflict : TopicStats → TopicStats}
    (implicit : new.config topic = .implicit topic) (keeps : KeepsColumns onConflict)
    (stats : Dict String TopicStats) (other : String) :
    configOf (upsert topic new onConflict stats) other = configOf stats other := by
  unfold upsert
  split
  · next absent =>
    rw [configOf_insert]
    split
    · next same =>
      subst same
      rw [implicit, configOf, absent]
      rfl
    · rfl
  · next row found =>
    rw [configOf_insert]
    split
    · next same =>
      subst same
      rw [keeps.config, configOf, found]
      rfl
    · rfl

theorem configOf_adjust {change : String → TopicStats → TopicStats}
    (keeps : ∀ topic, KeepsColumns (change topic)) (other : String) :
    ∀ (topics : List String) (stats : Dict String TopicStats),
      configOf (adjust change topics stats) other = configOf stats other
  | [], stats => rfl
  | topic :: rest, stats => by
    rw [adjust]
    split
    · exact configOf_adjust keeps other rest stats
    · next row found =>
      rw [configOf_adjust keeps other rest, configOf_insert]
      split
      · next same =>
        subst same
        rw [(keeps other).config, configOf, found]
        rfl
      · rfl

theorem configOf_foldl {Item : Type} {add : Dict String TopicStats → Item → Dict String TopicStats}
    (keeps : ∀ stats item, configOf (add stats item) other = configOf stats other) :
    ∀ (items : List Item) (stats : Dict String TopicStats),
      configOf (items.foldl add stats) other = configOf stats other
  | [], stats => rfl
  | item :: rest, stats => by
    rw [List.foldl_cons, configOf_foldl keeps rest, keeps]

theorem StatsUpdate.configOf_apply (db : Database) {statement : StatsUpdate}
    (ordinary : Call.Ordinary (.sql (.stats statement))) (other : String) :
    configOf (statement.apply db) other = configOf db.topicStats other := by
  cases statement with
  | noteSubscribed | configure | demoteExact => exact ordinary.elim
  | bump | bumpDropped | setDepth =>
    exact configOf_upsert (by exact config_of_defaults rfl rfl)
      (by exact fun row => ⟨rfl, rfl⟩) _ other
  | flush pending =>
    refine configOf_foldl (fun stats entry => ?_) pending db.topicStats
    exact configOf_upsert (by exact config_of_defaults rfl rfl)
      (by exact fun row => ⟨rfl, rfl⟩) _ other
  | reset | touchUnseen | clearDepths =>
    exact configOf_adjust (by exact fun _ row => ⟨rfl, rfl⟩) other _ _
  | seedFromMessages | seedFromConsumers =>
    refine configOf_foldl (fun stats topic => ?_) _ db.topicStats
    exact configOf_upsert (by exact config_of_defaults rfl rfl)
      (by exact fun row => ⟨rfl, rfl⟩) _ other

theorem configOf_upsert_of_ne (different : other ≠ topic) (new : TopicStats)
    (onConflict : TopicStats → TopicStats) (stats : Dict String TopicStats) :
    configOf (upsert topic new onConflict stats) other = configOf stats other := by
  unfold upsert
  split <;> rw [configOf_insert, if_neg different]

theorem configOf_deleteIdleRows :
    ∀ {topics : List String} (stats : Dict String TopicStats), other ∉ topics →
      configOf (deleteIdleRows topics stats).2 other = configOf stats other
  | [], stats, _ => rfl
  | topic :: rest, stats, absent => by
    obtain ⟨different, later⟩ := not_or.mp (List.mem_cons.not.mp absent)
    rw [deleteIdleRows]
    split
    · exact configOf_deleteIdleRows stats later
    · split
      · rw [configOf_deleteIdleRows (stats.erase topic) later, configOf,
          AList.lookup_erase_ne different]
        rfl
      · exact configOf_deleteIdleRows stats later

theorem lookup_eraseAll {Value : Type} {key : String} :
    ∀ (topics : List String) (dict : Dict String Value),
      (eraseAll topics dict).lookup key = if key ∈ topics then none else dict.lookup key
  | [], dict => by simp [eraseAll]
  | topic :: rest, dict => by
    rw [eraseAll, lookup_eraseAll rest]
    by_cases same : key = topic
    · subst same
      simp [AList.lookup_erase]
    · simp [AList.lookup_erase_ne same, same]

/-! ## Actions on rows and on the cache -/

def rewrites : (request : Action) → Reply request → List String
  | .sql (.stats (.noteSubscribed topic _ _)), .ok _ => [topic]
  | .sql (.stats (.configure topic _ _ _)), .ok _ => [topic]
  | .sql (.deleteIdle topics), .ok _ => topics
  | _, _ => []

/-- The topics whose rows an action rewrites if it succeeds. -/
def Action.rewritten : Action → List String
  | .sql (.stats (.noteSubscribed topic _ _)) | .sql (.stats (.configure topic _ _ _)) => [topic]
  | .sql (.deleteIdle topics) => topics
  | _ => []

/-- The topics whose cache entry an action replaces or removes. -/
def Action.caches : Action → List String
  | .access (.cacheInsert topic _) => [topic]
  | .access (.cacheRemove topics) => topics
  | _ => []

def Action.Opens : Action → Prop
  | .sql (.stats .demoteExact) | .access (.openCache _) => True
  | _ => False

variable {choice : Choice} {before after : Database}

theorem StatsUpdate.configOf_apply_of_not_mem (db : Database) {update : StatsUpdate}
    (closed : ¬ (Action.sql (.stats update)).Opens)
    (absent : topic ∉ rewrites (.sql (.stats update)) (.ok ())) :
    configOf (update.apply db) topic = configOf db.topicStats topic := by
  by_cases ordinary : Call.Ordinary (.sql (.stats update))
  · exact update.configOf_apply db ordinary topic
  · cases update with
    | noteSubscribed | configure =>
      exact configOf_upsert_of_ne (List.mem_singleton.not.mp absent) _ _ _
    | demoteExact => exact absurd trivial closed
    | _ => exact absurd trivial ordinary

variable {request : Action} {answer : Reply request}

theorem rewrites_subset : rewrites request answer ⊆ request.rewritten := by
  unfold rewrites
  split
  all_goals first | exact List.Subset.refl _ | exact List.nil_subset _

theorem mem_rewrites_of_configures {columns : String × String}
    (stored : configures topic request answer = some columns) :
    topic ∈ rewrites request answer := by
  unfold configures at stored
  split at stored
  · split at stored
    · next same => exact same ▸ .head _
    · cases stored
  · cases stored

theorem perform_keeps_row (performed : perform choice before request = some (answer, after))
    (closed : ¬ request.Opens) (unwritten : topic ∉ rewrites request answer) :
    configOf after.topicStats topic = configOf before.topicStats topic := by
  rcases perform_catalogue performed with
    same | ⟨update, asked, written⟩ | ⟨topics, _, asked, written⟩
  · rw [same]
  · cases asked
    rw [written]
    exact update.configOf_apply_of_not_mem before closed unwritten
  · cases asked
    rw [written]
    exact configOf_deleteIdleRows _ unwritten

theorem perform_keeps_entry (performed : perform choice before request = some (answer, after))
    (closed : ¬ request.Opens) (untouched : topic ∉ request.caches) :
    after.cache.lookup topic = before.cache.lookup topic := by
  cases request with
  | sql =>
    simp only [perform] at performed
    split at performed
    · cases performed
      rfl
    · split at performed
      · cases performed
      · cases performed
        rfl
      · next executed =>
        cases performed
        rw [(Sql.execute_kept executed).2.1]
  | access access =>
    cases access with
    | now | nextTurn | cacheGet | recordStats | takeStats | restoreStats =>
      cases performed
      rfl
    | newUuid =>
      simp only [perform, Access.execute] at performed
      split at performed <;> cases performed
      rfl
    | cacheInsert =>
      cases performed
      exact AList.lookup_insert_ne (List.mem_singleton.not.mp untouched)
    | cacheRemove topics =>
      cases performed
      exact (lookup_eraseAll topics _).trans (if_neg untouched)
    | openCache => exact absurd trivial closed

/-- A configured row says what it was configured to. -/
theorem HasRow.configOf_eq {delivery persistence : String} {stats : Dict String TopicStats}
    (has : HasRow (ConfiguredTo (delivery, persistence)) stats topic) :
    configOf stats topic = .fromColumns topic delivery persistence := by
  obtain ⟨row, found, _, rfl, rfl⟩ := has
  rw [configOf, found]
  rfl

/-! ## What a call knows and owes -/

/-- What a statement tells its call about the row of a topic: what it has read or
written. -/
def tells : (request : Action) → Reply request → Option TopicConfig
  | .sql (.selectStats topic), .ok row =>
    some ((row.map (·.config topic)).getD (.implicit topic))
  | .sql (.stats (.configure topic delivery persistence _)), .ok _ =>
    some (.fromColumns topic delivery persistence)
  | _, _ => none

theorem eq_configOf_of_tells (performed : perform choice before request = some (answer, after))
    {config : TopicConfig} (told : tells request answer = some config) :
    config = configOf after.topicStats config.topic := by
  unfold tells at told
  split at told
  · next name row =>
    cases told
    have named : ((row.map (TopicStats.config name)).getD (.implicit name)).topic = name := by
      cases row <;> rfl
    simp only [perform] at performed
    split at performed <;> cases performed
    rw [named]
    rfl
  · cases told
    exact (hasRow_of_configures performed (if_pos rfl)).configOf_eq.symm
  · cases told

def told : Path → Option TopicConfig
  | [] => none
  | exchange :: _ => tells exchange.request exchange.answer

/-- The topics a call has just rewritten and not yet touched in the cache. -/
def owed : Path → List String
  | [] => []
  | exchange :: _ => rewrites exchange.request exchange.answer

def Settled (path : Path) : Prop :=
  owed path = []

/-- The call touches the entries that it owes an access, and puts in the cache only what
its last statement told it. -/
def Tidy (path : Path) (request : Action) : Prop :=
  owed path ⊆ request.caches ∧
    ∀ topic config, request = .access (.cacheInsert topic config) →
      config.topic = topic ∧ told path = some config

def Action.Reads (request : Action) : Prop :=
  (∀ answer, rewrites request answer = []) ∧
    ∀ topic config, request ≠ .access (.cacheInsert topic config)

theorem Tidy.of_settled {path : Path} (settled : Settled path) (reads : request.Reads) :
    Tidy path request := by
  refine ⟨?_, fun topic config same => absurd same (reads.2 topic config)⟩
  rw [settled]
  exact List.nil_subset _

theorem Tidy.sql_of_settled {path : Path} {statement : Sql} (settled : Settled path) :
    Tidy path (.sql statement) := by
  refine ⟨?_, by rintro _ _ ⟨⟩⟩
  rw [settled]
  exact List.nil_subset _

theorem reads_of_ordinary (ordinary : Call.Ordinary request) : request.Reads := by
  refine ⟨fun answer => ?_, ?_⟩
  · unfold Call.Ordinary at ordinary
    unfold rewrites
    split at ordinary <;> simp_all
  · rintro topic config rfl
    exact ordinary

variable {call : Call}

/-- A call that does not configure topics rewrites none, unless it opens the
database. -/
theorem Call.Allows.reads (allows : call.Allows request) (other : ¬ call.Configures) :
    request.Reads := by
  refine ⟨fun answer => ?_, ?_⟩
  · unfold rewrites
    split
    · exact absurd allows other
    · exact absurd allows other
    · exact absurd allows other
    · rfl
  · rintro topic config rfl
    exact other allows

namespace Db

theorem guided_tidy_of_reads {Result : Type} {before : Path → Action → Prop} {program : Db Result}
    (reads : ∀ path request, before path request → request.Reads)
    (guided : Guided (fun _ => True) before program.run) :
    Guided Settled Tidy program.run := by
  intro path settled
  have carried :=
    guided_carry
      (fun path request answer asked _ => (reads path request asked).1 answer)
      guided path settled
  exact carried.mono fun path request held => Tidy.of_settled held.2 (reads path request held.1)

theorem guided_tidy_sql {statement : Sql}
    (reads : ∀ answer, rewrites (.sql statement) answer = []) :
    Guided Settled Tidy (sql statement).run :=
  fun _ settled => ⟨Tidy.sql_of_settled settled, reads⟩

theorem guided_tidy_access {accessed : Access} (ordinary : Call.Ordinary (.access accessed)) :
    Guided Settled Tidy (access accessed).run :=
  fun _ settled =>
    ⟨Tidy.of_settled settled (reads_of_ordinary ordinary), (reads_of_ordinary ordinary).1⟩

theorem tidy_topicConfig (topic : String) : Guided Settled Tidy (topicConfig topic).run := by
  unfold topicConfig
  refine guided_exceptBind (guided_tidy_access trivial) fun cached => ?_
  split
  · exact guided_pure _
  · intro path settled
    rw [ensures_sql]
    refine ⟨Tidy.sql_of_settled settled, fun row => ?_, fun _ => rfl⟩
    rw [ensures_access]
    refine ⟨⟨List.nil_subset _, ?_⟩, fun _ => rfl⟩
    rintro _ _ ⟨⟩
    exact ⟨by cases row <;> rfl, rfl⟩

theorem tidy_noteSubscribedTopic (topic : String) :
    Guided Settled Tidy (noteSubscribedTopic topic).run := by
  refine guided_exceptBind (guided_tidy_access trivial) fun now => ?_
  intro path settled
  rw [ensures_sql]
  refine ⟨Tidy.sql_of_settled settled, fun answer => ?_, fun _ => rfl⟩
  exact ⟨⟨List.Subset.refl _, by rintro _ _ ⟨⟩⟩, fun _ => rfl⟩

theorem tidy_configureTopics (configs : List TopicConfig) :
    Guided Settled Tidy (configureTopics configs).run := by
  refine guided_exceptBind (guided_forEach fun config _ => ?_) fun _ => guided_tidy_sql fun _ => rfl
  refine guided_exceptBind (guided_tidy_access trivial) fun now => ?_
  intro path settled
  rw [ensures_sql]
  refine ⟨Tidy.sql_of_settled settled, fun answer => ?_, fun _ => rfl⟩
  refine ⟨⟨List.Subset.refl _, ?_⟩, fun _ => rfl⟩
  rintro _ _ ⟨⟩
  exact ⟨rfl, congrArg some (TopicConfig.fromColumns_asStr config)⟩

theorem tidy_purgeIdleEphemeral (cutoff : Nat) (keep : List String) :
    Guided Settled Tidy (purgeIdleEphemeral cutoff keep).run := by
  refine guided_exceptBind ?_ fun _ => ?_
  · exact
      guided_tidy_of_reads (fun _ _ ordinary => reads_of_ordinary ordinary)
        (guided_flushTopicStats (fun _ _ _ => trivial) fun _ _ ordinary => ordinary)
  refine guided_exceptBind (guided_tidy_sql fun _ => rfl) fun idle => ?_
  unfold purgeTopics
  split
  · exact guided_pure _
  · refine
      guided_exceptBind (guided_forEach fun topic _ => guided_tidy_sql fun _ => rfl) fun _ => ?_
    intro path settled
    rw [ensures_sql]
    refine ⟨Tidy.sql_of_settled settled, fun answer => ?_, fun _ => rfl⟩
    rw [ensures_access]
    exact ⟨⟨List.Subset.refl _, by rintro _ _ ⟨⟩⟩, fun reply => rfl⟩

end Db

/-- What the account of a run keeps of each call: the writes it may make, and
that it pays what it owes. -/
def Call.Accountable (call : Call) (path : Path) (request : Action) : Prop :=
  call.Allows request ∧ (call ≠ .connect → Tidy path request)

theorem Call.tidy_body (validJson : String → Bool) (serving : call ≠ .connect) :
    Guided Settled Tidy (call.body validJson).run := by
  by_cases configures : call.Configures
  · cases call with
    | topicConfig topic => exact guided_map (Db.tidy_topicConfig topic)
    | noteSubscribedTopic topic => exact guided_map (Db.tidy_noteSubscribedTopic topic)
    | configureTopics configs => exact guided_map (Db.tidy_configureTopics configs)
    | purgeIdleEphemeral cutoff keep => exact guided_map (Db.tidy_purgeIdleEphemeral cutoff keep)
    | _ => exact configures.elim
  · exact
      Db.guided_tidy_of_reads (fun _ _ may => may.1.reads configures) (call.behaves_body validJson)

theorem Call.accountable_body (validJson : String → Bool) (call : Call) :
    Ensures call.Accountable (fun path _ => call ≠ .connect → Settled path) []
      (call.body validJson).run := by
  have behaves := call.behaves_body validJson [] trivial
  by_cases serving : call = .connect
  · subst serving
    refine (behaves.mono fun _ _ may => ⟨may.1, ?_⟩).weaken fun _ _ _ => ?_
    · exact fun different => absurd rfl different
    · exact fun different => absurd rfl different
  · have tidy := call.tidy_body validJson serving [] rfl
    refine ((behaves.and tidy).mono fun _ _ both => ?_).weaken fun _ _ both => ?_
    · exact ⟨both.1.1, fun _ => both.2⟩
    · exact fun _ => both.2

/-! ## Whole runs -/

/-- The topics whose rows the next action of a thread rewrites, if it succeeds. -/
def rewriting (pool : Broker) (thread : Nat) : List String :=
  (pool.next? thread).elim [] Action.rewritten

/-- No row is rewritten while another call is between a statement that has read or written
it and the access of the cache that follows. -/
def Undivided (pool : Broker) : BrokerEvent → Prop
  | .advance thread _ =>
    ∀ topic ∈ rewriting pool thread, ∀ other < pool.fresh, other ≠ thread →
      (pool.threads other).isSome = true →
        ∀ config ∈ told (ownPath other pool.history), config.topic ≠ topic
  | _ => True

instance (pool : Broker) (event : BrokerEvent) : Decidable (Undivided pool event) :=
  match event with
  | .advance thread _ => inferInstanceAs (Decidable (∀ topic ∈ rewriting pool thread, _))
  | .spawn _ | .crash => isTrue trivial

/-- The last statement of the thread has configured the topic. -/
def Configuring (pool : Broker) (thread : Nat) (topic : String) : Prop :=
  ∃ exchange ∈ (ownPath thread pool.history).head?,
    (configures topic exchange.request exchange.answer).isSome = true

instance (pool : Broker) (thread : Nat) (topic : String) :
    Decidable (Configuring pool thread topic) :=
  inferInstanceAs (Decidable (∃ exchange ∈ _, _))

/-- A running call owes the topic's cache entry an access.  Once the topic is configured,
only a call that configures it does. -/
def Owing (pool : Broker) (thread : Nat) (topic : String) : Prop :=
  ∃ running, pool.threads thread = some running ∧ running.call.Configures ∧
    topic ∈ owed (ownPath thread pool.history) ∧
    (lastConfigured topic pool.history ≠ none → Configuring pool thread topic)

/-- The invariant: every call knows what the row says until it has used it, and every
entry is coherent or owed an access. -/
structure CacheKept (validJson : String → Bool) (initial : Database) (pool : Broker) :
    Prop where
  reached : ∃ events, schedule validJson initial events = some pool
  serving :
    ∀ {thread running}, pool.threads thread = some running → running.call ≠ .connect
  knows :
    ∀ {thread running config}, pool.threads thread = some running →
      told (ownPath thread pool.history) = some config →
        config = configOf pool.shared.topicStats config.topic
  kept : ∀ topic, pool.shared.Coherent topic ∨ ∃ thread, Owing pool thread topic

theorem Call.Allows.configures_of_rewrites
    (allows : call.Allows request) (member : topic ∈ rewrites request answer) :
    call.Configures := by
  by_contra other
  rw [(allows.reads other).1 answer] at member
  cases member

theorem Call.Allows.not_opens (allows : call.Allows request)
    (serving : call ≠ .connect) : ¬ request.Opens := by
  intro opens
  unfold Action.Opens at opens
  split at opens
  · exact serving allows
  · exact serving allows
  · exact opens

/-- An access that pays for a topic leaves its entry coherent, provided what it
puts there is what the row says. -/
theorem coherent_of_caches (performed : perform choice before request = some (answer, after))
    (paid : topic ∈ request.caches)
    (current :
      ∀ config, request = .access (.cacheInsert topic config) →
        config = configOf before.topicStats topic) :
    after.Coherent topic := by
  unfold Action.caches at paid
  split at paid
  · next name config =>
    obtain rfl := List.mem_singleton.mp paid
    cases performed
    intro cached found
    rw [AList.lookup_insert, Option.some.injEq] at found
    rw [← found]
    exact current config rfl
  · next topics =>
    cases performed
    intro cached found
    rw [lookup_eraseAll, if_pos paid] at found
    cases found
  · cases paid

section Step

variable {validJson : String → Bool} {initial : Database} {pool reached : Broker}

theorem CacheKept.accounted (kept : CacheKept validJson initial pool) :
    Pool.Accounted Call.Accountable (fun call path _ => call ≠ .connect → Settled path) pool := by
  obtain ⟨events, scheduled⟩ := kept.reached
  exact Pool.accounted_replay (fun call => call.accountable_body validJson) scheduled

variable {running : Thread Call Action Reply Outcome} {entry : Entry}
  {next : Reply entry.request → Program Action Reply Outcome}

/-- No action but a configuration changes what the row of a configured topic says. -/
theorem CacheKept.configOf_eq (kept : CacheKept validJson initial pool)
    (acts : Pool.Acts (databaseComponent validJson) pool choice running entry next)
    (configured : lastConfigured topic pool.history ≠ none)
    (foreign : configures topic entry.request entry.answer = none) :
    configOf entry.after.topicStats topic = configOf pool.shared.topicStats topic := by
  obtain ⟨⟨delivery, persistence⟩, stored⟩ := Option.ne_none_iff_exists'.mp configured
  obtain ⟨events, scheduled⟩ := kept.reached
  have has := hasRow_schedule scheduled stored
  rw [has.configOf_eq]
  rw [← acts.previous] at has
  exact (has.perform acts.performed foreign).configOf_eq

theorem Owing.of_ne {other : Nat} (owing : Owing pool other topic)
    (different : other ≠ entry.thread)
    (foreign : configures topic entry.request entry.answer = none) :
    Owing (pool.acted running entry next) other topic := by
  obtain ⟨running, found, configures, member, configuring⟩ := owing
  have samePath : ownPath other (entry :: pool.history) = ownPath other pool.history :=
    ownPath_cons_of_ne different.symm
  refine ⟨running, ?_, configures, ?_, fun configured => ?_⟩
  · rw [Pool.settle_threads_of_ne different]
    exact found
  · rw [Pool.settle_history, samePath]
    exact member
  · rw [Pool.settle_history, lastConfigured, List.findSome?_cons, foreign] at configured
    rw [Configuring, Pool.settle_history, samePath]
    exact configuring configured

/-- A call that has rewritten a row goes on, and owes the entry an access. -/
theorem CacheKept.owing_of_rewrites (kept : CacheKept validJson initial pool)
    (acts : Pool.Acts (databaseComponent validJson) pool choice running entry next)
    (written : topic ∈ rewrites entry.request entry.answer)
    (configured :
      lastConfigured topic (entry :: pool.history) ≠ none →
        (configures topic entry.request entry.answer).isSome = true) :
    Owing (pool.acted running entry next) entry.thread topic := by
  have rest := acts.onward kept.accounted
  cases remaining : next entry.answer with
  | done =>
    rw [remaining, ownPath_cons_self] at rest
    have settled : rewrites entry.request entry.answer = [] := rest (kept.serving acts.found)
    rw [settled] at written
    cases written
  | perform request continuation =>
    have allows := (acts.asks kept.accounted).1
    rw [acts.sameCall] at allows
    refine ⟨⟨running.call, running.born, .perform request continuation⟩, ?_,
      allows.configures_of_rewrites written, ?_, fun stored => ?_⟩
    · simp [Pool.acted, Pool.settle, remaining]
    · rw [Pool.settle_history, ownPath_cons_self]
      exact written
    · rw [Pool.settle_history] at stored
      rw [Configuring, Pool.settle_history, ownPath_cons_self]
      exact ⟨entry.exchange, rfl, configured stored⟩

/-- One action keeps every entry coherent or owed: an access of the entry puts there what
the row says, a change of the row is owed an access, and nothing else matters. -/
theorem CacheKept.kept_advance (kept : CacheKept validJson initial pool)
    (acts : Pool.Acts (databaseComponent validJson) pool choice running entry next)
    (topic : String) :
    entry.after.Coherent topic ∨ ∃ other, Owing (pool.acted running entry next) other topic := by
  have asks := acts.asks kept.accounted
  rw [acts.sameCall] at asks
  have tidy := asks.2 (kept.serving acts.found)
  have closed := asks.1.not_opens (kept.serving acts.found)
  by_cases paid : topic ∈ entry.request.caches
  · refine .inl (coherent_of_caches acts.performed paid fun config asked => ?_)
    obtain ⟨rfl, isTold⟩ := tidy.2 topic config asked
    rw [acts.previous]
    exact kept.knows acts.found isTold
  cases stored : configures topic entry.request entry.answer with
  | some =>
    refine .inr ⟨entry.thread, kept.owing_of_rewrites acts ?_ fun _ => ?_⟩
    · exact mem_rewrites_of_configures stored
    · rw [stored]
      rfl
  | none =>
    have sameLast : lastConfigured topic (entry :: pool.history) =
        lastConfigured topic pool.history := by
      rw [lastConfigured, List.findSome?_cons, stored]
      rfl
    by_cases quiet :
      configOf entry.after.topicStats topic = configOf pool.shared.topicStats topic
    · rcases kept.kept topic with coherent | ⟨other, owing⟩
      · refine .inl fun config cached => ?_
        rw [perform_keeps_entry acts.performed closed paid, acts.previous] at cached
        rw [quiet]
        exact coherent config cached
      · have different : other ≠ entry.thread := by
          rintro rfl
          obtain ⟨_, _, _, member, _⟩ := owing
          exact paid (tidy.1 member)
        exact .inr ⟨other, owing.of_ne different stored⟩
    · refine .inr ⟨entry.thread, kept.owing_of_rewrites acts ?_ fun configured => ?_⟩
      · by_contra unwritten
        rw [← acts.previous] at quiet
        exact quiet (perform_keeps_row acts.performed closed unwritten)
      · rw [sameLast] at configured
        exact absurd (kept.configOf_eq acts configured stored) quiet

/-- What a call knows of a row stays true, since no other call rewrites the row. -/
theorem CacheKept.knows_advance (kept : CacheKept validJson initial pool)
    (acts : Pool.Acts (databaseComponent validJson) pool choice running entry next)
    (undivided : Undivided pool (.advance entry.thread choice))
    {other : Nat} {waiting : Thread Call Action Reply Outcome} {config : TopicConfig}
    (runs : (pool.acted running entry next).threads other = some waiting)
    (isTold : told (ownPath other (entry :: pool.history)) = some config) :
    config = configOf entry.after.topicStats config.topic := by
  rcases Pool.settle_running runs with ⟨rfl, _⟩ | ⟨different, older⟩
  · rw [ownPath_cons_self] at isTold
    exact eq_configOf_of_tells acts.performed isTold
  · rw [ownPath_cons_of_ne different.symm] at isTold
    have allows := (acts.asks kept.accounted).1
    rw [acts.sameCall] at allows
    rw [perform_keeps_row acts.performed (allows.not_opens (kept.serving acts.found)),
      acts.previous]
    · exact kept.knows older isTold
    · intro written
      have rewrites : config.topic ∈ rewriting pool entry.thread := by
        rw [rewriting, acts.next?]
        exact rewrites_subset written
      refine undivided _ rewrites other (kept.accounted.runningBelow older) different ?_ config
        isTold rfl
      rw [older]
      rfl

theorem cacheKept_step {event : BrokerEvent} (kept : CacheKept validJson initial pool)
    (undivided : Undivided pool event) (serving : event ≠ .spawn .connect)
    (stepped : Pool.step (databaseComponent validJson) pool event = some reached) :
    CacheKept validJson initial reached := by
  have scheduled : ∃ events, schedule validJson initial events = some reached := by
    obtain ⟨events, scheduled⟩ := kept.reached
    exact ⟨events ++ [event], run_append_eq_some.mpr
      ⟨pool, scheduled, run_cons_eq_some.mpr ⟨reached, stepped, rfl⟩⟩⟩
  rcases Pool.step_cases stepped with
    ⟨call, rfl, rfl⟩ | ⟨choice, moving, entry, next, rfl, acts, rfl⟩ | ⟨_, rfl⟩
  · refine ⟨scheduled, fun runs => ?_, fun runs isTold => ?_, fun topic => ?_⟩
    · rcases Pool.settle_running runs with ⟨_, rfl⟩ | ⟨_, older⟩
      · rintro rfl
        exact serving rfl
      · exact kept.serving older
    · rw [Pool.settle_history] at isTold
      rw [Pool.settle_shared]
      rcases Pool.settle_running runs with ⟨rfl, _⟩ | ⟨_, older⟩
      · rw [kept.accounted.ownPath_fresh] at isTold
        cases isTold
      · exact kept.knows older isTold
    · rw [Pool.settle_shared]
      refine (kept.kept topic).imp_right ?_
      rintro ⟨thread, running, found, owing⟩
      refine ⟨thread, running, ?_, ?_⟩
      · rw [Pool.settle_threads_of_ne (Nat.ne_of_lt (kept.accounted.runningBelow found))]
        exact found
      · rw [Configuring, Pool.settle_history]
        exact owing
  · refine ⟨scheduled, fun runs => ?_, fun runs isTold => ?_, fun topic => ?_⟩
    · obtain ⟨earlier, wasRunning, same⟩ := acts.runs runs
      exact same ▸ kept.serving wasRunning
    · rw [Pool.settle_history] at isTold
      rw [Pool.settle_shared]
      exact kept.knows_advance acts undivided runs isTold
    · rw [Pool.settle_shared]
      exact kept.kept_advance acts topic
  · refine ⟨scheduled, ?_, ?_, fun topic => .inl fun config cached => ?_⟩
    · rintro _ _ ⟨⟩
    · rintro _ _ _ ⟨⟩
    · cases cached

end Step

/-- A lookup of the topic finds the configuration, in the cache or in the catalogue. -/
def Database.Sees (db : Database) (topic : String) (config : TopicConfig) : Prop :=
  (∀ cached, db.cache.lookup topic = some cached → cached = config) ∧
    configOf db.topicStats topic = config

/-- An action is answered where the configuration is seen; other calls may do anything
afterwards. -/
def AnsweredSeeing (topic : String) (config : TopicConfig) (db : Database) (request : Action)
    (answer : Reply request) (_ : Database) : Prop :=
  db.Sees topic config ∧
    ∃ choice reached, choice.fails = false ∧ perform choice db request = some (answer, reached)

theorem ran_topicConfig_seeing {config : TopicConfig} {outcome : Except DbError TopicConfig}
    (ran : Ran (AnsweredSeeing topic config) (Db.topicConfig topic).run before outcome after) :
    outcome = .ok config := by
  unfold Db.topicConfig at ran
  obtain ⟨cached, _, ⟨sees, choice, _, _, got⟩, later⟩ := Db.ran_access_bind.mp ran
  cases got
  cases found : before.cache.lookup topic with
  | some entry =>
    rw [found] at later
    rw [later.1, sees.1 entry found]
  | none =>
    rw [found] at later
    rcases ran_exceptBind.mp later with ⟨row, _, selected, filling⟩ | ⟨_, selected, _⟩
    · obtain ⟨⟨_, seen⟩, choice, _, works, selects⟩ := Db.ran_sql.mp selected
      obtain ⟨_, _, _, same, _⟩ := Db.ran_access_bind.mp filling
      rw [perform, works, if_neg Bool.false_ne_true] at selects
      cases selects
      rw [same, ← seen]
      rfl
    · obtain ⟨_, choice, _, works, selects⟩ := Db.ran_sql.mp selected
      rw [perform, works, if_neg Bool.false_ne_true] at selects
      cases selects

/-- **The cache of configurations.**  In every run in which no row is rewritten between a
statement of another call on it and that call's access of the cache: whenever no call that
handles configurations is in progress, a cached configuration is what the topic's row says,
or the implicit one when there is no row.  And whatever is in progress, once a topic was
configured and no call that configures it has its access of the cache still to come, every
lookup finds what the topic was last configured to, among any other calls that leave it
so. -/
theorem topicCache_coherent (validJson : String → Bool) (initial : Database)
    (events : List BrokerEvent) (pool : Broker) (coherent : ∀ topic, initial.Coherent topic)
    (serving : ∀ event ∈ events, event ≠ .spawn .connect)
    (undivided :
      Along (Pool.step (databaseComponent validJson)) Undivided (Pool.start initial) events)
    (scheduled : schedule validJson initial events = some pool) :
    ((∀ thread running, pool.threads thread = some running → ¬ running.call.Configures) →
        ∀ topic, pool.shared.Coherent topic) ∧
      ∀ topic delivery persistence,
        lastConfigured topic pool.history = some (delivery, persistence) →
          (∀ thread running, pool.threads thread = some running →
            ¬ Configuring pool thread topic) →
            pool.shared.Sees topic (.fromColumns topic delivery persistence) ∧
              ∀ db outcome after,
                Ran (AnsweredSeeing topic (.fromColumns topic delivery persistence))
                  (Db.topicConfig topic).run db outcome after →
                outcome = .ok (.fromColumns topic delivery persistence) := by
  have started : CacheKept validJson initial (Pool.start initial : Broker) :=
    ⟨⟨[], rfl⟩, by rintro _ _ ⟨⟩, by rintro _ _ _ ⟨⟩, fun topic => .inl (coherent topic)⟩
  have kept : CacheKept validJson initial pool :=
    run_invariant_along
      (fun held meets stepped => cacheKept_step held meets.1 meets.2 stepped)
      started (undivided.and_of_mem serving) scheduled
  refine ⟨fun idle topic => ?_, fun topic delivery persistence stored apart => ⟨?_, ?_⟩⟩
  · refine (kept.kept topic).resolve_right ?_
    rintro ⟨thread, running, found, configures, _⟩
    exact idle thread running found configures
  · have row := (hasRow_schedule scheduled stored).configOf_eq
    refine ⟨fun cached found => ?_, row⟩
    rw [← row]
    refine (kept.kept topic).resolve_right ?_ cached found
    rintro ⟨thread, running, found, _, _, configuring⟩
    refine apart thread running found (configuring ?_)
    rw [stored]
    exact Option.some_ne_none _
  · exact fun db outcome after ran => ran_topicConfig_seeing ran

/-- A topic is looked up and the implicit configuration cached; it is made persistent; and
it is looked up again while a subscription has written the row and not yet touched the
cache. -/
def looksUp : List BrokerEvent :=
  [.spawn (.topicConfig "jobs"), .advance 0 {}, .advance 0 {}, .advance 0 {},
    .spawn (.configureTopics [⟨"jobs", .single, .persistent⟩]), .advance 1 { clock := 5 },
    .advance 1 {}, .advance 1 {}, .advance 1 {},
    .spawn (.noteSubscribedTopic "jobs"), .advance 2 { clock := 6 }, .advance 2 {},
    .spawn (.topicConfig "jobs"), .advance 3 {}]

theorem idle_of_fresh {validJson : String → Bool} {initial : Database} {events : List BrokerEvent}
    {pool : Broker} (scheduled : schedule validJson initial events = some pool)
    (returned : ∀ thread < pool.fresh, (pool.threads thread).isNone = true) :
    pool.Quiescent := by
  have accounted := Pool.accounted_replay (fun call => call.accountable_body validJson) scheduled
  intro thread
  cases found : pool.threads thread with
  | none => rfl
  | some =>
    have gone := returned thread (accounted.runningBelow found)
    rw [found] at gone
    cases gone

theorem topicCache_coherent_looksUp : ∃ pool,
    schedule (fun _ => true) Database.empty looksUp = some pool ∧
      (pool.threads 2).isSome = true ∧
      pool.shared.cache.lookup "jobs" = some ⟨"jobs", .single, .persistent⟩ ∧
      pool.shared.Sees "jobs" ⟨"jobs", .single, .persistent⟩ := by
  obtain ⟨pool, scheduled, undivided, subscribing, cached, stored, apart⟩ : ∃ pool,
      schedule (fun _ => true) Database.empty looksUp = some pool ∧
        checkAlong (Pool.step (databaseComponent fun _ => true))
          (fun pool event => decide (Undivided pool event)) (Pool.start Database.empty)
          looksUp = true ∧
        (pool.threads 2).isSome = true ∧
        pool.shared.cache.lookup "jobs" = some ⟨"jobs", .single, .persistent⟩ ∧
        lastConfigured "jobs" pool.history = some ("single", "persistent") ∧
        ∀ thread < pool.fresh, (pool.threads thread).isSome = true →
          ¬ Configuring pool thread "jobs" :=
    exists_some_of_check (by decide +kernel)
  have accounted := Pool.accounted_replay (fun call => call.accountable_body _) scheduled
  refine ⟨pool, scheduled, subscribing, cached, ?_⟩
  refine ((topicCache_coherent _ _ _ _ ?_ ?_ (along_of_check ?_ undivided) scheduled).2 "jobs"
    "single" "persistent" stored ?_).1
  · intro topic config found
    cases found
  · simp [looksUp]
  · exact fun _ _ checked => of_decide_eq_true checked
  · intro thread running found
    refine apart thread (accounted.runningBelow found) ?_
    rw [found]
    rfl

/-- A lookup misses the cache and reads that there is no row; the topic is made
persistent; the lookup then caches what it read. -/
def staleFill : List BrokerEvent :=
  [.spawn (.topicConfig "jobs"), .advance 0 {}, .advance 0 {},
    .spawn (.configureTopics [⟨"jobs", .broadcast, .persistent⟩]),
    .advance 1 { clock := 5 }, .advance 1 {}, .advance 1 {}, .advance 1 {},
    .advance 0 {}]

/-- With no call in progress, an ephemeral entry hides a persistent row. -/
theorem topicCache_stale : ∃ pool,
    schedule (fun _ => true) Database.empty staleFill = some pool ∧
      pool.Quiescent ∧ ¬ ∀ topic, pool.shared.Coherent topic := by
  obtain ⟨pool, scheduled, returned, cached, differs⟩ : ∃ pool,
      schedule (fun _ => true) Database.empty staleFill = some pool ∧
        (∀ thread < pool.fresh, (pool.threads thread).isNone = true) ∧
        pool.shared.cache.lookup "jobs" = some (.implicit "jobs") ∧
        TopicConfig.implicit "jobs" ≠ configOf pool.shared.topicStats "jobs" :=
    exists_some_of_check (by decide +kernel)
  refine ⟨pool, scheduled, idle_of_fresh scheduled returned, fun coherent => ?_⟩
  exact differs (coherent "jobs" _ cached)

end CanglingBroker
