import CanglingBroker.Database.Rotation
import CanglingBroker.Delivery.Calls

/-!
# HTTP polling

`consume_poll` looks up the configuration of the string it is given, and then claims for
that string, which the claim reads as a filter.
-/

namespace CanglingBroker

open Foundation
open Delivery (trimmed)
open Program (Ran drive ran_exceptBind_ok ran_of_drive)

/-- The request; the attributes are the JSON text that is stored, `protocol` included. -/
structure ConsumePollBody where
  (topic consumerId consumerName attributes : String)

/-- One round of the loop of `consume_poll`. -/
def pollOnce (validJson : String → Bool) (topic : String) (visibility : Nat) :
    Db (Option ClaimedMessage) := do
  let messages ← Db.claimBatchForFilter validJson topic visibility 1
  pure messages.getLast?

/-- `consume_poll`: the message, if any, or the status of the refusal.  `waits` is how
often the loop goes on before its deadline. -/
def consumePoll (validJson : String → Bool) (ackTimeoutSecs : Nat) (body : ConsumePollBody)
    (waits : Nat) : Db (Except Nat (Option ClaimedMessage)) := do
  let topic := trimmed body.topic
  let consumerId := trimmed body.consumerId
  if topic = "" ∨ consumerId = "" then
    pure (.error 400)
  else
    let settings ← Db.topicConfig topic
    if settings.persistence ≠ .persistent ∨ settings.delivery ≠ .single then
      pure (.error 409)
    else
      let name := trimmed body.consumerName
      let _ ←
        Db.registerConsumer (some consumerId) topic (if name = "" then consumerId else name)
          body.attributes
      let found ←
        Db.firstSome (fun _ => pollOnce validJson topic (ackTimeoutSecs * second))
          (List.range (waits + 1))
      pure (.ok found)

/-- How an action is answered among other calls: a statement may fail, and after the
action the others may do anything, but not within the lookup of a configuration. -/
def AnsweredBeside (db : Database) (request : Action) (answer : Reply request)
    (after : Database) : Prop :=
  ∃ choice middle, perform choice db request = some (answer, middle) ∧
    ∀ topic, request = .access (.cacheGet topic) → after = middle

/-- What `topic_config` finds. -/
def Database.configOf (db : Database) (topic : String) : TopicConfig :=
  (db.cache.lookup topic).getD
    (((db.topicStats.lookup topic).map (·.config topic)).getD (.implicit topic))

/-- The topic is one of competing consumers: persistent and single. -/
def Database.Competing (db : Database) (topic : String) : Prop :=
  (db.configOf topic).persistence = .persistent ∧ (db.configOf topic).delivery = .single

section Beside

variable {db after : Database} {validJson : String → Bool}

theorem ran_topicConfig {topic : String} {settings : TopicConfig}
    (ran : Ran AnsweredBeside (Db.topicConfig topic).run db (.ok settings) after) :
    settings = db.configOf topic := by
  unfold Db.topicConfig at ran
  obtain ⟨cached, middle, ⟨choice, _, got, kept⟩, later⟩ := Db.ran_access_bind.mp ran
  obtain rfl := kept topic rfl
  cases got
  unfold Database.configOf
  cases found : db.cache.lookup topic with
  | some config =>
    rw [found] at later
    obtain ⟨same, _⟩ := later
    exact Except.ok.inj same
  | none =>
    rw [found] at later
    obtain ⟨row, _, selected, filling⟩ := ran_exceptBind_ok.mp later
    obtain ⟨choice, _, selects, _⟩ := Db.ran_sql.mp selected
    obtain ⟨_, _, _, same, _⟩ := Db.ran_access_bind.mp filling
    cases same
    simp only [perform, Sql.execute] at selects
    split at selects <;> cases selects
    rfl

theorem exists_ran_of_firstSome {State Item Result : Type}
    {respond : State → (request : Action) → Reply request → State → Prop}
    {body : Item → Db (Option Result)} {found : Result} {final : State} :
    ∀ {items : List Item} {state : State},
      Ran respond (Db.firstSome body items).run state (.ok (some found)) final →
        ∃ item ∈ items, ∃ start, Ran respond (body item).run start (.ok (some found)) final
  | [], _, ran => by cases ran.1
  | item :: rest, state, ran => by
    rcases Db.ran_firstSome_cons.mp ran with ⟨_, first, same⟩ | ⟨_, _, later⟩ | ⟨_, _, failed⟩
    · cases same
      exact ⟨item, .head _, state, first⟩
    · obtain ⟨other, member, searched⟩ := exists_ran_of_firstSome later
      exact ⟨other, .tail _ member, searched⟩
    · cases failed

theorem topic_of_ran_claim {topic : String} {visibility limit : Nat}
    {messages : List ClaimedMessage}
    (ran :
      Ran AnsweredBeside (Db.claimBatchForTopic validJson topic visibility limit).run db
        (.ok messages) after) :
    ∀ message ∈ messages, message.topic = topic := by
  unfold Db.claimBatchForTopic at ran
  obtain ⟨now, _, _, drawing⟩ := Db.ran_access_bind.mp ran
  obtain ⟨lease, _, _, claiming⟩ := Db.ran_access_bind.mp drawing
  split at claiming
  · cases claiming.1
  · obtain ⟨rows, _, claimed, sorting⟩ := ran_exceptBind_ok.mp claiming
    obtain ⟨choice, _, performed, _⟩ := Db.ran_sql.mp claimed
    split at sorting
    · cases sorting.1
      intro message member
      obtain ⟨row, affected, rfl⟩ := mem_returned member
      cases perform_effect performed with
      | updated _ _ _ picks => exact topic_of_affected picks affected
      | other _ _ _ harmless => exact harmless.elim
    · cases sorting.1

theorem topic_of_ran_filter {filter : String} {visibility limit : Nat}
    {messages : List ClaimedMessage}
    (ran :
      Ran AnsweredBeside (Db.claimBatchForFilter validJson filter visibility limit).run db
        (.ok messages) after) :
    ∀ message ∈ messages, message.topic = filter ∨ filterMatches filter message.topic = true := by
  unfold Db.claimBatchForFilter at ran
  split at ran
  · exact fun message member => .inl (topic_of_ran_claim ran message member)
  · obtain ⟨start, _, _, sweeping⟩ := Db.ran_access_bind.mp ran
    obtain ⟨found, _, swept, same, _⟩ := ran_exceptBind_ok.mp sweeping
    cases same
    cases found with
    | none => exact List.forall_mem_nil _
    | some batch =>
      obtain ⟨shard, _, _, visited⟩ := exists_ran_of_firstSome swept
      obtain ⟨now, _, _, listing⟩ := Db.ran_access_bind.mp visited
      obtain ⟨topics, _, _, searching⟩ := ran_exceptBind_ok.mp listing
      obtain ⟨topic, _, _, claiming⟩ := exists_ran_of_firstSome searching
      unfold Db.claimFrom at claiming
      split at claiming
      · next matched =>
        obtain ⟨claimed, _, taken, chosen⟩ := ran_exceptBind_ok.mp claiming
        split at chosen
        · cases chosen.1
        · cases chosen.1
          intro message member
          exact .inr (topic_of_ran_claim taken message member ▸ matched)
      · cases claiming.1

end Beside

/-- A poll serves a message only if the polled string is configured for competing consumers
when the poll looks, and only one whose topic the string is or matches. -/
theorem consumePoll_serves_matching (validJson : String → Bool) (ackTimeoutSecs : Nat)
    (body : ConsumePollBody) (waits : Nat) {db after : Database} {message : ClaimedMessage}
    (served :
      Ran AnsweredBeside (consumePoll validJson ackTimeoutSecs body waits).run db
        (.ok (.ok (some message))) after) :
    db.Competing (trimmed body.topic) ∧ (message.topic = trimmed body.topic ∨
        filterMatches (trimmed body.topic) message.topic = true) := by
  unfold consumePoll at served
  dsimp only at served
  split at served
  · cases served.1
  · obtain ⟨settings, _, looked, onward⟩ := ran_exceptBind_ok.mp served
    obtain rfl := ran_topicConfig looked
    split at onward
    · cases onward.1
    · next passed =>
      rw [not_or, not_not, not_not] at passed
      obtain ⟨_, _, _, polling⟩ := ran_exceptBind_ok.mp onward
      obtain ⟨found, _, polled, same, _⟩ := ran_exceptBind_ok.mp polling
      cases same
      obtain ⟨_, _, _, round⟩ := exists_ran_of_firstSome polled
      obtain ⟨messages, _, claimed, last, _⟩ := ran_exceptBind_ok.mp round
      have member := List.mem_of_getLast? (Except.ok.inj last).symm
      exact ⟨passed, topic_of_ran_filter claimed message member⟩

/-- The backlog, with one of its topics configured for competing consumers. -/
def jobs : Database :=
  { backlog with cache := backlog.cache.insert "jobs" ⟨"jobs", .single, .persistent⟩ }

def pollJobs : Db (Except Nat (Option ClaimedMessage)) :=
  consumePoll (fun _ => true) 30 ⟨"jobs", "worker", "", "\x7b\x7d"⟩ 0

theorem consumePoll_serves_matching_jobs : ∃ message after,
    Ran AnsweredBeside pollJobs.run jobs (.ok (.ok (some message))) after ∧
      jobs.Competing (trimmed "jobs") ∧ (message.topic = trimmed "jobs" ∨
        filterMatches (trimmed "jobs") message.topic = true) := by
  obtain ⟨⟨_, after⟩, driven, rfl⟩ : ∃ final,
      drive perform
          [{}, {}, {}, {}, { clock := 9 }, { uuid := "lease" }, { order := ["s13-b"] }]
          pollJobs.run jobs = some final ∧
        final.1 = .ok (.ok (some ⟨"s13-b", "jobs", [105], "\x7b\x7d", 2, "lease", 2⟩)) :=
    exists_some_of_check (by decide +kernel)
  have served : Ran AnsweredBeside pollJobs.run jobs _ after :=
    ran_of_drive (fun choice _ _ _ middle performed => ⟨choice, middle, performed, fun _ _ => rfl⟩)
      driven
  exact ⟨_, after, served, consumePoll_serves_matching _ _ _ _ served⟩

end CanglingBroker
