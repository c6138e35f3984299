import CanglingBroker.Database.Trace

/-!
# Where the topics of messages come from

The messages that a call stores are of the topics it was given, and no statement changes
the topic of a stored message.  So what holds of the topics of all stored messages and of
all topics that calls are given goes on holding of the messages.
-/

namespace CanglingBroker

open Foundation
open Program (Ensures Guided guided_bind guided_done guided_exceptBind guided_map
  guided_pure guided_throw)

def Call.enqueuedTopics : Call → List String
  | .enqueue _ topic _ _ => [topic]
  | .enqueueBatch items => items.map EnqueueInput.topic
  | _ => []

/-- The messages that a statement stores are of the topics its call was given. -/
def Call.StoresGiven (call : Call) : Action → Prop
  | .sql (.enqueue _ group) => ∀ item ∈ group, item.1.topic ∈ call.enqueuedTopics
  | _ => True

section Programs

variable {call : Call}

theorem storesGiven_of_ordinary (_ : Path) (request : Action) (ordinary : Call.Ordinary request) :
    call.StoresGiven request := by
  unfold Call.StoresGiven
  split
  · exact ordinary.elim
  · trivial

theorem storesGiven_enqueueBatch {items : List EnqueueInput}
    (given : ∀ item ∈ items, item.topic ∈ call.enqueuedTopics) :
    Guided (fun _ => True) (fun _ request => call.StoresGiven request)
      (Db.enqueueBatch items).run := by
  refine guided_exceptBind (Db.guided_forEach fun shard _ => ?_) fun stored => ?_
  · unfold Db.enqueueShard
    split
    · exact guided_pure _
    · refine guided_exceptBind (Db.guided_forEach fun _ _ => ?_) fun times => ?_
      · exact Db.guided_access (fun _ _ _ => trivial) fun _ _ => trivial
      refine guided_exceptBind ?_ fun _ => guided_pure _
      refine Db.guided_sql (fun _ _ _ => trivial) fun _ _ item member => ?_
      obtain ⟨placed, kept, same⟩ := List.mem_map.mp (List.of_mem_zip member).1
      rw [← same]
      exact given _ (List.fst_mem_of_mem_zipIdx (List.mem_of_mem_filter kept))
  · exact
      guided_exceptBind
        (Db.guided_recordTallies (fun _ _ _ => trivial) storesGiven_of_ordinary _)
        fun _ => guided_pure _

/-- Every call stores only messages of the topics it was given. -/
theorem Call.ensures_storesGiven (validJson : String → Bool) (call : Call) :
    Ensures (fun _ request => call.StoresGiven request) (fun _ _ => True) []
      (call.body validJson).run := by
  have others : ¬call.Enqueues →
      Ensures (fun _ request => call.StoresGiven request) (fun _ _ => True) []
        (call.body validJson).run := by
    intro storesNothing
    refine ((call.behaves_body validJson).ensures trivial).mono fun path request may => ?_
    unfold Call.StoresGiven
    split
    · exact absurd may.1.1 storesNothing
    · trivial
  cases call with
  | enqueue _ topic =>
    refine (guided_map ?_ : Guided (fun _ => True) _ _).ensures trivial
    refine guided_exceptBind ?_ fun uuid => ?_
    · exact Db.guided_access (fun _ _ _ => trivial) fun _ _ => trivial
    refine guided_exceptBind (storesGiven_enqueueBatch fun item member => ?_) fun results => ?_
    · cases List.mem_singleton.mp member
      exact List.mem_singleton_self topic
    · split
      · exact guided_pure _
      · exact guided_throw _
  | enqueueBatch =>
    refine (guided_map ?_ : Guided (fun _ => True) _ _).ensures trivial
    exact storesGiven_enqueueBatch fun item member => List.mem_map_of_mem member
  | _ => exact others id

end Programs

def Database.TopicsAre (good : String → Prop) (db : Database) : Prop :=
  ∀ store, ∀ row ∈ (db.messages store).rows, good row.topic

/-- The topics of stored messages were stored at the start, or given to a call. -/
theorem Trace.topicsAre {initial db : Database} {history : List Entry} {good : String → Prop}
    (trace : Trace initial history db) (initially : initial.TopicsAre good)
    (stores : ∀ entry ∈ history, entry.call.StoresGiven entry.request)
    (given : ∀ entry ∈ history, ∀ topic ∈ entry.call.enqueuedTopics, good topic) :
    (∀ entry ∈ history, entry.before.TopicsAre good) ∧ db.TopicsAre good := by
  induction trace with
  | start => exact ⟨fun _ member => absurd member List.not_mem_nil, initially⟩
  | restart _ ih => exact ih stores given
  | @act history entry earlier effect may ih =>
    obtain ⟨before, now⟩ :=
      ih
        (fun older member => stores older (.tail _ member))
        (fun older member => given older (.tail _ member))
    refine ⟨fun acting member => ?_, fun store row member => ?_⟩
    · rcases List.mem_cons.mp member with rfl | older
      · exact now
      · exact before acting older
    · rcases effect.rows_after member with ⟨stored, listed, moves⟩ | created
      · have same : row.topic = stored.topic :=
          congrArg Message.topic moves.toMessage_eq
        rw [same]
        exact now store stored listed
      · have asked := stores entry (.head _)
        cases created with
        | enqueued _ item isEnqueue listed =>
          rw [isEnqueue] at asked
          exact given entry (.head _) _ (asked item listed)
        | copied _ isCopy =>
          rw [isCopy] at may
          obtain ⟨newer, listing, older, source, rfl, listed, _, rfl⟩ := earlier.copied_source may.2
          exact before listing (List.mem_append_right _ (.head _)) .control source listed

theorem topicsAre_of_schedule {validJson : String → Bool} {initial : Database}
    {events : List BrokerEvent} {pool : Broker} {good : String → Prop}
    (scheduled : schedule validJson initial events = some pool)
    (initially : initial.TopicsAre good)
    (given : ∀ call, .spawn call ∈ events → ∀ topic ∈ call.enqueuedTopics, good topic) :
    pool.shared.TopicsAre good := by
  have stores : ∀ entry ∈ pool.history, entry.call.StoresGiven entry.request :=
    Pool.allowed_of_replay (Call.ensures_storesGiven validJson) scheduled
  exact ((trace_of_schedule scheduled).topicsAre initially stores
    (Pool.performed_of_spawned given scheduled)).2

end CanglingBroker
