import CanglingBroker.Database.TopicCache
import CanglingBroker.Foundation.Dict

/-!
# Registering consumers

`register_consumer` updates the row of its consumer and inserts one if there was none: two
statements and no transaction.  Calls are interleaved at their statements; `Conflicts` is
the insert that finds a row another call has put there in between.
-/

namespace CanglingBroker

open Foundation
open Program (Ensures ensures_map ensures_of_extends)

/-- The calls about consumers; those of `register_consumer` are given an identifier. -/
def Call.AboutConsumers : Call → Prop
  | .registerConsumer (some id) _ _ _ => id ≠ ""
  | .touchConsumer _ | .unregisterConsumer _ | .purgeStaleConsumers _ => True
  | _ => False

/-- The statements of such a call; it writes what it was given. -/
def Call.WritesConsumer (call : Call) : Action → Prop
  | .sql (.updateConsumer id topic name attributes _)
  | .sql (.insertConsumer id topic name attributes _) =>
    call = .registerConsumer (some id) topic name attributes
  | .sql (.touchConsumer ..) | .sql (.deleteConsumer _) | .sql (.purgeConsumers _)
  | .access .now => True
  | _ => False

/-- The database has answered with an error. -/
def erred : Exchange Action Reply → Bool
  | ⟨.sql _, .error _⟩ => true
  | _ => false

/-- An insert finds that there is a row under its identifier. -/
def Conflicts (entry : Entry) : Bool :=
  match entry.request with
  | .sql (.insertConsumer id ..) => (entry.before.consumers.lookup id).isSome
  | _ => false

/-- A call about consumers asks for nothing more once a statement has failed. -/
def Call.MayConsume (call : Call) (path : Path) (request : Action) : Prop :=
  call.AboutConsumers → (∀ exchange ∈ path, erred exchange = false) ∧ call.WritesConsumer request

/-- `register_consumer` returns its identifier, unless a statement failed. -/
def Call.Tells (call : Call) (path : Path) (outcome : Outcome) : Prop :=
  call.AboutConsumers →
    ∀ id topic name attributes, call = .registerConsumer (some id) topic name attributes →
      ((∀ exchange ∈ path, erred exchange = false) ↔ outcome = .ok (.text id))

/-! ## The programs -/

theorem Call.ensures_consumers (validJson : String → Bool) (call : Call) :
    Ensures call.MayConsume call.Tells [] (call.body validJson).run := by
  by_cases about : call.AboutConsumers
  · match call, about with
    | .registerConsumer (some id) topic name attributes, named =>
      have nonempty : id ≠ "" := named
      have given : (some id).filter (· ≠ "") = some id := by simp [nonempty]
      refine ensures_map ?_
      unfold Db.registerConsumer
      rw [given]
      refine Db.ensures_access.mpr ⟨fun _ => ⟨List.forall_mem_nil _, trivial⟩, fun now => ?_⟩
      refine Db.ensures_sql.mpr ⟨fun _ => ⟨?_, rfl⟩, fun updated => ?_, fun problem _ => ?_⟩
      · simp [erred]
      · split
        · rintro - _ _ _ _ ⟨rfl, rfl, rfl, rfl⟩
          simp [erred, Except.map]
        · refine Db.ensures_sql.mpr ⟨fun _ => ⟨?_, rfl⟩, fun _ => ?_, fun problem _ => ?_⟩
          · simp [erred]
          · rintro - _ _ _ _ ⟨rfl, rfl, rfl, rfl⟩
            simp [erred, Except.map]
          · rintro _ _ _ _ ⟨rfl, rfl, rfl, rfl⟩
            simp [erred, Except.map]
      · rintro _ _ _ _ ⟨rfl, rfl, rfl, rfl⟩
        simp [erred, Except.map]
    | .touchConsumer id, _ =>
      refine ensures_map
        (Db.ensures_access.mpr ⟨fun _ => ⟨List.forall_mem_nil _, trivial⟩, fun now => ?_⟩)
      refine Db.ensures_sql.mpr
        ⟨fun _ => ⟨?_, trivial⟩, fun _ _ _ _ _ _ => nofun, fun _ _ _ _ _ _ => nofun⟩
      simp [erred]
    | .unregisterConsumer id, _ =>
      refine ensures_map
        (Db.ensures_sql.mpr ⟨fun _ => ⟨List.forall_mem_nil _, trivial⟩,
          fun _ _ _ _ _ _ => nofun, fun _ _ _ _ _ _ => nofun⟩)
    | .purgeStaleConsumers cutoff, _ =>
      refine ensures_map ⟨fun _ => ⟨List.forall_mem_nil _, trivial⟩, fun _ _ _ _ _ _ => nofun⟩
  · exact (ensures_of_extends fun _ _ _ keeps => absurd keeps about).mono
      fun _ _ _ keeps => absurd keeps about

/-! ## Rows -/

/-- The row was there, or a call has registered the consumer so. -/
def Registered (initial : Database) (started : Call → Prop) (db : Database) : Prop :=
  ∀ id consumer, db.consumers.lookup id = some consumer →
    (∃ original, initial.consumers.lookup id = some original ∧ consumer.topic = original.topic ∧
        consumer.name = original.name ∧ consumer.attributes = original.attributes) ∨
      started (.registerConsumer (some id) consumer.topic consumer.name consumer.attributes)

theorem registered_perform {initial before after : Database} {started : Call → Prop} {call : Call}
    {choice : Choice} {request : Action} {answer : Reply request}
    (registered : Registered initial started before) (isStarted : started call)
    (writes : call.WritesConsumer request)
    (performed : perform choice before request = some (answer, after)) :
    Registered initial started after := by
  intro id consumer found
  have known := registered id
  match request, writes with
  | .sql (.updateConsumer key ..), same | .sql (.insertConsumer key ..), same
  | .sql (.touchConsumer key _), same =>
    cases stored : before.consumers.lookup key <;>
      simp only [perform, Sql.execute, stored] at performed <;>
      split at performed <;> cases performed <;>
      grind [Dict.lookup_insert, Call.WritesConsumer]
  | .sql (.deleteConsumer _), _ | .sql (.purgeConsumers _), _ =>
    simp only [perform, Sql.execute] at performed
    split at performed <;> cases performed <;> grind [Dict.lookup_erase, lookup_eraseAll]
  | .access .now, _ =>
    cases performed
    exact known consumer found

/-! ## Calls that have returned -/

theorem erred_of_conflicts {choice : Choice} {entry : Entry}
    (performed : perform choice entry.before entry.request = some (entry.answer, entry.after))
    (conflicts : Conflicts entry = true) : erred entry.exchange = true := by
  obtain ⟨_, _, request, answer, before, after⟩ := entry
  cases request with
  | access => cases conflicts
  | sql statement =>
    cases statement with
    | insertConsumer id =>
      obtain ⟨_, stored⟩ := Option.isSome_iff_exists.mp conflicts
      simp only [perform, Sql.execute, stored] at performed
      split at performed <;> cases performed <;> rfl
    | _ => cases conflicts

/-- A call about consumers returns with the first statement that fails. -/
def Ended (pool : Broker) : Prop :=
  ∀ entry ∈ pool.history, entry.call.AboutConsumers → erred entry.exchange = true →
    ∃ returned ∈ pool.finished, returned.thread = entry.thread ∧ returned.call = entry.call

theorem ended_step {validJson : String → Bool} {pool reached : Broker} {event : BrokerEvent}
    (accounted : Pool.Accounted Call.MayConsume Call.Tells reached) (ended : Ended pool)
    (stepped : Pool.step (databaseComponent validJson) pool event = some reached) :
    Ended reached := by
  intro entry member about failure
  have older (listed : entry ∈ pool.history) :
      ∃ returned ∈ reached.finished,
        returned.thread = entry.thread ∧ returned.call = entry.call := by
    obtain ⟨returned, isReturned, same⟩ := ended entry listed about failure
    exact ⟨returned, Pool.mem_finished_of_step isReturned stepped, same⟩
  rcases Pool.step_cases stepped with
    ⟨call, _, rfl⟩ | ⟨_, running, latest, next, _, acts, rfl⟩ | ⟨_, rfl⟩
  · rw [Pool.settle_history] at member
    exact older member
  · rw [Pool.settle_history] at member
    rcases List.mem_cons.mp member with rfl | listed
    · clear older stepped
      unfold Pool.acted at accounted ⊢
      generalize next entry.answer = rest at accounted ⊢
      cases rest with
      | done => exact ⟨_, .head _, rfl, acts.sameCall.symm⟩
      | perform =>
        have held := accounted.running (Function.update_self ..)
        have quiet := (held.1 (acts.sameCall ▸ about)).1 _ (mem_ownPath (.head _) rfl)
        rw [failure] at quiet
        cases quiet
    · exact older listed
  · exact older member

theorem ended_of_schedule {validJson : String → Bool} {initial : Database}
    {events : List BrokerEvent} {pool : Broker}
    (scheduled : schedule validJson initial events = some pool) : Ended pool := by
  have programs := fun call => Call.ensures_consumers validJson call
  exact Pool.invariant_along programs
    (fun accounted ended _ stepped =>
      ended_step (Pool.accounted_step programs accounted stepped) ended stepped)
    (List.forall_mem_nil _) (along_of_mem fun _ _ => trivial) scheduled

/-- Concurrent calls of `register_consumer` all return their identifier exactly when no
insert finds a row, where nothing but such a conflict makes a statement fail.  The row of a
consumer, of which there is at most one, is always one that a call has asked for or that was
there from the start. -/
theorem consumers_upserted_iff (validJson : String → Bool) (initial : Database)
    (events : List BrokerEvent) (pool : Broker)
    (scheduled : schedule validJson initial events = some pool)
    (about : ∀ call, .spawn call ∈ events → call.AboutConsumers)
    (faultless : ∀ entry ∈ pool.history, erred entry.exchange = true → Conflicts entry = true) :
    ((∀ returned ∈ pool.finished, ∀ id topic name attributes, id ≠ "" →
        returned.call = .registerConsumer (some id) topic name attributes →
          returned.result = .ok (.text id)) ↔
      ∀ entry ∈ pool.history, Conflicts entry = false) ∧
    Registered initial (fun call => .spawn call ∈ events) pool.shared := by
  have programs := fun call => Call.ensures_consumers validJson call
  have accounted := Pool.accounted_replay programs scheduled
  have acts := Pool.history_induction programs
    (fun db history =>
      (∀ entry ∈ history, .spawn entry.call ∈ events) →
        Registered initial (fun call => .spawn call ∈ events) db ∧
          ∀ entry ∈ history, Conflicts entry = true →
            erred entry.exchange = true ∧ entry.call.WritesConsumer entry.request)
    (by
      intro entry history choice held performed may started
      have spawned := started entry (.head _)
      have writes := (may (about _ spawned)).2
      obtain ⟨registered, earlier⟩ := held fun other member => started other (.tail _ member)
      refine ⟨registered_perform registered spawned writes performed, ?_⟩
      intro other member conflicts
      rcases List.mem_cons.mp member with rfl | older
      · exact ⟨erred_of_conflicts performed conflicts, writes⟩
      · exact earlier other older conflicts)
    (fun _ _ held => held)
    (fun _ => ⟨fun _ _ found => .inl ⟨_, found, rfl, rfl, rfl⟩, List.forall_mem_nil _⟩) scheduled
  obtain ⟨registered, conflicting⟩ :=
    acts (Pool.performed_of_spawned (fun _ spawned => spawned) scheduled)
  have spawned := Pool.performed_of_spawned about scheduled
  refine ⟨⟨fun upserted entry member => ?_, ?_⟩, registered⟩
  · by_contra conflict
    have conflicts : Conflicts entry = true := eq_true_of_ne_false conflict
    obtain ⟨failure, writes⟩ := conflicting entry member conflicts
    obtain ⟨returned, isReturned, sameThread, sameCall⟩ :=
      ended_of_schedule scheduled entry member (spawned entry member) failure
    unfold Conflicts at conflicts
    split at conflicts
    · next id topic name attributes now request =>
      rw [request] at writes
      have called : returned.call = .registerConsumer (some id) topic name attributes :=
        sameCall.trans writes
      have aboutIt : returned.call.AboutConsumers := sameCall ▸ spawned entry member
      have told := accounted.finished returned isReturned aboutIt id topic name attributes called
      have nonempty : id ≠ "" := by
        rw [called] at aboutIt
        exact aboutIt
      have quiet := told.mpr (upserted returned isReturned id topic name attributes nonempty called)
        entry.exchange (mem_ownPath member sameThread.symm)
      rw [failure] at quiet
      cases quiet
    · cases conflicts
  · intro quiet returned member id topic name attributes nonempty same
    have told := accounted.finished returned member (same ▸ nonempty) id topic name attributes same
    refine told.mp fun exchange onPath => ?_
    by_contra failure
    obtain ⟨entry, listed, _, rfl⟩ := exists_performed_of_mem_ownPath onPath
    have conflicts := faultless entry listed (eq_true_of_ne_false failure)
    rw [quiet entry listed] at conflicts
    cases conflicts

/-- Two streams of one client register its consumer one after the other. -/
def registeredTwice : List BrokerEvent :=
  [.spawn (.registerConsumer (some "c") "jobs" "a" ""), .advance 0 { clock := 1 },
    .advance 0 {}, .advance 0 {},
    .spawn (.registerConsumer (some "c") "jobs" "b" ""), .advance 1 { clock := 2 }, .advance 1 {}]

theorem consumers_upserted_iff_twice : ∃ pool,
    schedule (fun _ => true) Database.empty registeredTwice = some pool ∧
      pool.finished.length = 2 ∧
      ∀ returned ∈ pool.finished, ∀ id topic name attributes, id ≠ "" →
        returned.call = .registerConsumer (some id) topic name attributes →
          returned.result = .ok (.text id) := by
  obtain ⟨pool, scheduled, both, quiet⟩ : ∃ pool,
      schedule (fun _ => true) Database.empty registeredTwice = some pool ∧
        pool.finished.length = 2 ∧
        ∀ entry ∈ pool.history, erred entry.exchange = false ∧ Conflicts entry = false :=
    exists_some_of_check (by decide +kernel)
  have about : ∀ call, .spawn call ∈ registeredTwice → call.AboutConsumers := by
    intro call member
    simp only [registeredTwice, List.mem_cons, PoolEvent.spawn.injEq, reduceCtorEq,
      List.not_mem_nil, or_false, false_or] at member
    rcases member with rfl | rfl
    · exact (by decide : "c" ≠ "")
    · exact (by decide : "c" ≠ "")
  refine ⟨pool, scheduled, both, ?_⟩
  refine (consumers_upserted_iff _ _ _ pool scheduled about fun entry member failure => ?_).1.mpr
    fun entry member => (quiet entry member).2
  rw [(quiet entry member).1] at failure
  cases failure

/-- The same two calls side by side: neither finds a row to update, both insert one. -/
def registeredAtOnce : List BrokerEvent :=
  [.spawn (.registerConsumer (some "c") "jobs" "a" ""), .advance 0 { clock := 1 },
    .spawn (.registerConsumer (some "c") "jobs" "b" ""), .advance 1 { clock := 1 },
    .advance 0 {}, .advance 1 {}, .advance 0 {}, .advance 1 {}]

/-- The second insert is refused, and its call returns the error. -/
theorem register_refused : ∃ pool,
    schedule (fun _ => true) Database.empty registeredAtOnce = some pool ∧
      (∀ entry ∈ pool.history, erred entry.exchange = true → Conflicts entry = true) ∧
      ∃ returned ∈ pool.finished,
        returned.call = .registerConsumer (some "c") "jobs" "b" "" ∧
          returned.result = .error .statement :=
  exists_some_of_check (by decide +kernel)

end CanglingBroker
