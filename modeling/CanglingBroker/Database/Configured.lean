import CanglingBroker.Database.Trace

/-!
# What topics are configured to

`configure_topics` marks the row it writes as configured.  Every other statement on the
catalogue, the ones of a restart included, leaves the two configuration columns of a
marked row alone, and the idle purge deletes no marked row.
-/

namespace CanglingBroker

open Foundation

/-! ## What writes the catalogue -/

section Catalogue

variable {choice : Choice} {before after : Database}

/-- No statement touches the cache, and two kinds write the catalogue. -/
theorem perform_catalogue {request : Action} {answer : Reply request}
    (performed : perform choice before request = some (answer, after)) :
    after.topicStats = before.topicStats ∨ (∃ update,
        (⟨request, answer⟩ : Exchange Action Reply) = ⟨.sql (.stats update), .ok ()⟩ ∧
          after.topicStats = update.apply before) ∨
      ∃ topics count,
        (⟨request, answer⟩ : Exchange Action Reply) = ⟨.sql (.deleteIdle topics), .ok count⟩ ∧
          after.topicStats = (deleteIdleRows topics before.topicStats).2 := by
  cases request with
  | sql =>
    simp only [perform] at performed
    split at performed
    · cases performed
      exact .inl rfl
    · split at performed
      · cases performed
      · cases performed
        exact .inl rfl
      · next result reached executed =>
        cases performed
        obtain ⟨_, _, _, same | ⟨update, rfl, written⟩ | ⟨topics, rfl, written⟩⟩ :=
          Sql.execute_kept executed
        · exact .inl same
        · exact .inr (.inl ⟨update, rfl, written⟩)
        · exact .inr (.inr ⟨topics, result, rfl, written⟩)
  | access access =>
    refine .inl ?_
    cases access with
    | newUuid =>
      simp only [perform, Access.execute] at performed
      split at performed <;> cases performed
      rfl
    | _ => cases performed; rfl

end Catalogue

/-! ## Rows that have a property -/

/-- The catalogue has a row for the topic, with a property. -/
def HasRow (holds : TopicStats → Prop) (stats : Dict String TopicStats) (topic : String) : Prop :=
  ∃ row, stats.lookup topic = some row ∧ holds row

section Rows

variable {holds : TopicStats → Prop} {stats : Dict String TopicStats} {topic : String}

theorem HasRow.insert {other : String} {row : TopicStats} (has : HasRow holds stats topic)
    (written : other = topic → holds row) :
    HasRow holds (stats.insert other row) topic := by
  by_cases same : topic = other
  · subst same
    exact ⟨row, AList.lookup_insert _, written rfl⟩
  · obtain ⟨old, found, held⟩ := has
    exact ⟨old, (AList.lookup_insert_ne same).trans found, held⟩

theorem HasRow.upsert {other : String} {new : TopicStats} {onConflict : TopicStats → TopicStats}
    (has : HasRow holds stats topic)
    (keeps : other = topic → ∀ row, holds row → holds (onConflict row)) :
    HasRow holds (upsert other new onConflict stats) topic := by
  obtain ⟨row, found, held⟩ := has
  unfold CanglingBroker.upsert
  split
  · next absent =>
    refine HasRow.insert ⟨row, found, held⟩ fun same => ?_
    subst same
    rw [absent] at found
    cases found
  · next old present =>
    refine HasRow.insert ⟨row, found, held⟩ fun same => keeps same old ?_
    subst same
    rw [present] at found
    cases found
    exact held

theorem HasRow.adjust {change : String → TopicStats → TopicStats}
    (keeps : ∀ other row, holds row → holds (change other row)) :
    ∀ (topics : List String) {stats : Dict String TopicStats},
      HasRow holds stats topic → HasRow holds (adjust change topics stats) topic
  | [], _, has => has
  | other :: rest, stats, has => by
    rw [CanglingBroker.adjust]
    split
    · exact HasRow.adjust keeps rest has
    · next row present =>
      refine HasRow.adjust keeps rest (has.insert fun same => keeps other row ?_)
      obtain ⟨old, found, held⟩ := has
      subst same
      rw [present] at found
      cases found
      exact held

theorem HasRow.foldl {Item : Type} {add : Dict String TopicStats → Item → Dict String TopicStats}
    (keeps :
      ∀ {stats : Dict String TopicStats} item,
        HasRow holds stats topic → HasRow holds (add stats item) topic) :
    ∀ (items : List Item) {stats : Dict String TopicStats},
      HasRow holds stats topic → HasRow holds (items.foldl add stats) topic
  | [], _, has => has
  | item :: rest, _, has => HasRow.foldl keeps rest (keeps item has)

/-- The idle purge spares configured rows. -/
theorem HasRow.deleteIdleRows (marked : ∀ row, holds row → row.configured = true) :
    ∀ (topics : List String) {stats : Dict String TopicStats},
      HasRow holds stats topic → HasRow holds (deleteIdleRows topics stats).2 topic
  | [], _, has => has
  | other :: rest, stats, has => by
    rw [CanglingBroker.deleteIdleRows]
    split
    · exact HasRow.deleteIdleRows marked rest has
    · next row present =>
      split
      · next idle =>
        refine HasRow.deleteIdleRows marked rest ?_
        obtain ⟨old, found, held⟩ := has
        refine ⟨old, ?_, held⟩
        refine (AList.lookup_erase_ne ?_).trans found
        rintro rfl
        rw [present] at found
        cases found
        rw [Bool.and_eq_true, marked _ held] at idle
        exact absurd idle.2 (by decide)
      · exact HasRow.deleteIdleRows marked rest has

end Rows

/-! ## Configured rows -/

/-- The row was written by `configure_topics`, with these two columns. -/
def ConfiguredTo (columns : String × String) (row : TopicStats) : Prop :=
  row.configured = true ∧ row.delivery = columns.1 ∧ row.persistence = columns.2

def configures (topic : String) : (request : Action) → Reply request → Option (String × String)
  | .sql (.stats (.configure name delivery persistence _)), .ok _ =>
    if name = topic then some (delivery, persistence) else none
  | _, _ => none

def lastConfigured (topic : String) (history : List Entry) : Option (String × String) :=
  history.findSome? fun entry => configures topic entry.request entry.answer

section Marks

variable {columns : String × String} {topic : String}

/-- No catalogue statement but a configuration of the topic changes what its row is
configured to. -/
theorem HasRow.apply {db : Database} {update : StatsUpdate}
    (has : HasRow (ConfiguredTo columns) db.topicStats topic)
    (foreign : configures topic (.sql (.stats update)) (.ok ()) = none) :
    HasRow (ConfiguredTo columns) (update.apply db) topic := by
  cases update with
  | configure =>
    refine has.upsert fun same => ?_
    simp [configures, same] at foreign
  | noteSubscribed =>
    refine has.upsert fun _ row marked => ⟨marked.1, marked.2.1, ?_⟩
    rw [← marked.2.2]
    exact if_pos marked.1
  | demoteExact =>
    refine HasRow.adjust (fun name row marked => ?_) _ has
    rw [if_neg]
    · exact marked
    · simp [marked.1]
  | bump =>
    exact has.upsert fun _ row marked => marked
  | bumpDropped | setDepth => exact has.upsert fun _ row marked => marked
  | flush =>
    exact HasRow.foldl (fun _ has => has.upsert (by exact fun _ row marked => marked)) _ has
  | seedFromMessages | seedFromConsumers =>
    exact HasRow.foldl (fun _ has => has.upsert fun _ row marked => marked) _ has
  | reset | touchUnseen | clearDepths =>
    exact HasRow.adjust (by exact fun _ row marked => marked) _ has

theorem hasRow_configure (db : Database) (delivery persistence : String) (now : Nat) :
    HasRow (ConfiguredTo (delivery, persistence))
      ((StatsUpdate.configure topic delivery persistence now).apply db) topic := by
  rw [StatsUpdate.apply, upsert]
  split
  · exact ⟨_, AList.lookup_insert _, rfl, rfl, rfl⟩
  · exact ⟨_, AList.lookup_insert _, rfl, rfl, rfl⟩

theorem hasRow_of_configures {choice : Choice} {before after : Database} {request : Action}
    {answer : Reply request} (performed : perform choice before request = some (answer, after))
    (stored : configures topic request answer = some columns) :
    HasRow (ConfiguredTo columns) after.topicStats topic := by
  unfold configures at stored
  split at stored
  · next name delivery persistence now _ =>
    split at stored
    · next same =>
      cases stored
      subst same
      simp only [perform] at performed
      split at performed <;> cases performed
      exact hasRow_configure before delivery persistence now
    · cases stored
  · cases stored

theorem HasRow.perform {choice : Choice} {before after : Database} {request : Action}
    {answer : Reply request} (has : HasRow (ConfiguredTo columns) before.topicStats topic)
    (performed : perform choice before request = some (answer, after))
    (foreign : configures topic request answer = none) :
    HasRow (ConfiguredTo columns) after.topicStats topic := by
  rcases perform_catalogue performed with same | ⟨update, asked, written⟩ | ⟨topics, _, _, written⟩
  · rw [same]
    exact has
  · cases asked
    rw [written]
    exact has.apply foreign
  · rw [written]
    exact HasRow.deleteIdleRows (fun row marked => marked.1) topics has

/-- After every run, a topic that was configured has a marked row. -/
theorem hasRow_schedule {validJson : String → Bool} {initial : Database}
    {events : List BrokerEvent} {pool : Broker}
    (scheduled : schedule validJson initial events = some pool)
    (stored : lastConfigured topic pool.history = some columns) :
    HasRow (ConfiguredTo columns) pool.shared.topicStats topic := by
  revert stored
  refine Pool.history_induction
    (fun call => call.behaves_body validJson [] trivial)
    (fun db history =>
      lastConfigured topic history = some columns →
        HasRow (ConfiguredTo columns) db.topicStats topic)
    ?_ ?_ ?_ scheduled
  · intro entry history choice earlier performed _ stored
    rw [lastConfigured, List.findSome?_cons] at stored
    cases shown : configures topic entry.request entry.answer with
    | some =>
      rw [shown] at stored
      cases stored
      exact hasRow_of_configures performed shown
    | none =>
      rw [shown] at stored
      exact (earlier stored).perform performed shown
  · intro db history earlier stored
    exact earlier stored
  · intro stored
    cases stored

end Marks

/-- **Explicit configuration wins.**  For every interleaving of calls and restarts, from
any stored data: after a topic was configured, and as long as it is not configured again,
its row exists and has the two columns that were stored. -/
theorem configuration_wins (validJson : String → Bool) (initial : Database)
    (events : List BrokerEvent) (pool : Broker)
    (scheduled : schedule validJson initial events = some pool)
    (topic delivery persistence : String)
    (stored : lastConfigured topic pool.history = some (delivery, persistence)) :
    ∃ row, pool.shared.topicStats.lookup topic = some row ∧
      row.delivery = delivery ∧ row.persistence = persistence := by
  obtain ⟨row, found, marked⟩ := hasRow_schedule scheduled stored
  exact ⟨row, found, marked.2⟩

/-- A topic is made persistent, reset, subscribed to and purged, and the broker starts
again. -/
def Configured.reconfigured : List BrokerEvent :=
  [.spawn (.configureTopics [⟨"jobs", .single, .persistent⟩]), .advance 0 { clock := 3 },
    .advance 0 {}, .advance 0 {}, .advance 0 {},
    .spawn (.noteSubscribedTopic "jobs"), .advance 1 { clock := 4 }, .advance 1 {},
    .advance 1 {},
    .spawn (.purgeIdleEphemeral 100 []), .advance 2 {}, .advance 2 {}, .crash,
    .spawn .connect] ++ List.replicate 44 (.advance 3 {})

theorem configuration_wins_reconfigured : ∃ pool,
    schedule (fun _ => true) Database.empty Configured.reconfigured = some pool ∧
      pool.finished.length = 4 ∧
      ∃ row, pool.shared.topicStats.lookup "jobs" = some row ∧
        row.delivery = "single" ∧ row.persistence = "persistent" := by
  obtain ⟨pool, scheduled, finished, configured⟩ : ∃ pool,
      schedule (fun _ => true) Database.empty Configured.reconfigured = some pool ∧
        pool.finished.length = 4 ∧
        lastConfigured "jobs" pool.history = some ("single", "persistent") :=
    exists_some_of_check (by decide +kernel)
  exact ⟨pool, scheduled, finished,
    configuration_wins _ _ _ _ scheduled "jobs" "single" "persistent" configured⟩

end CanglingBroker
