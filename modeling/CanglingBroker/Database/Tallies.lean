import CanglingBroker.Database.Alone
import CanglingBroker.Foundation.Dict

/-!
# The counters of a topic

What the catalogue has counted for a topic, and what the statements that count add.
-/

namespace CanglingBroker

open Foundation
open Program (Ran ran_bind ran_exceptBind)

/-- The counters of a topic: accepted, duplicates, delivered, failed and dropped. -/
abbrev Tallies : Type := Int × Int × Int × Int × Int

def TopicStats.tallies (row : TopicStats) : Tallies :=
  (row.accepted, row.duplicates, row.delivered, row.failed, row.dropped)

def storedTallies (stats : Dict String TopicStats) (topic : String) : Tallies :=
  ((stats.lookup topic).map TopicStats.tallies).getD 0

def talliesFor (topic name : String) (amount : Tallies) : Tallies :=
  if topic = name then amount else 0

/-- An `INSERT … ON CONFLICT` that adds an amount to a row, new or stored, adds it to the
counters of its topic and no other. -/
theorem storedTallies_upsert {stats : Dict String TopicStats} {name : String} {new : TopicStats}
    {onConflict : TopicStats → TopicStats} {amount : Tallies} (fresh : new.tallies = amount)
    (stored : ∀ row, (onConflict row).tallies = row.tallies + amount) (topic : String) :
    storedTallies (upsert name new onConflict stats) topic =
      storedTallies stats topic + talliesFor topic name amount := by
  unfold storedTallies upsert talliesFor
  split
  · next absent =>
    rw [Dict.lookup_insert]
    split
    · next same =>
      rw [same, absent, Option.map_some, fresh]
      exact (zero_add amount).symm
    · exact (add_zero _).symm
  · next row found =>
    rw [Dict.lookup_insert]
    split
    · next same =>
      rw [same, found, Option.map_some, stored]
      rfl
    · exact (add_zero _).symm

theorem storedTallies_bump (db : Database) (name : String)
    (accepted duplicates delivered failed : Int) (now : Nat) (topic : String) :
    storedTallies
        ((StatsUpdate.bump name accepted duplicates delivered failed now).apply db) topic =
      storedTallies db.topicStats topic +
        talliesFor topic name (accepted, duplicates, delivered, failed, 0) :=
  storedTallies_upsert rfl (fun row => by simp [TopicStats.tallies, TopicStats.default]) topic

theorem storedTallies_bumpDropped (db : Database) (name : String) (dropped : Int) (now : Nat)
    (topic : String) :
    storedTallies ((StatsUpdate.bumpDropped name dropped now).apply db) topic =
      storedTallies db.topicStats topic + talliesFor topic name (0, 0, 0, 0, dropped) :=
  storedTallies_upsert rfl (fun row => by simp [TopicStats.tallies, TopicStats.default]) topic

/-! ## The calls that count at once -/

/-- A call adds an amount to the counters of one topic, and changes nothing else that is
counted. -/
def AddsTallies (name : String) (amount : Tallies) (db after : Database) : Prop :=
  after.deltas = db.deltas ∧ ∀ topic,
      storedTallies after.topicStats topic =
        storedTallies db.topicStats topic + talliesFor topic name amount

section Bumping

variable {clock : Nat → Prop} {db after : Database} {name : String} {outcome : Except DbError Unit}

theorem answered_stats {statement : StatsUpdate} {answer : Except DbError Unit}
    (answered : Answered clock db (.sql (.stats statement)) answer after) :
    answer = .ok () ∧ after = { db with topicStats := statement.apply db } := by
  obtain ⟨choice, works, _, performed⟩ := answered
  rw [perform, works, if_neg Bool.false_ne_true, Sql.execute] at performed
  cases performed
  exact ⟨rfl, rfl⟩

theorem ran_bumpTopicStat {accepted duplicates delivered failed : Int}
    (ran :
      Ran (Answered clock)
        (Db.bumpTopicStat name accepted duplicates delivered failed).run db outcome after) :
    outcome = .ok () ∧ AddsTallies name (accepted, duplicates, delivered, failed, 0) db after := by
  obtain ⟨now, middle, read, asked⟩ := Db.ran_access_bind.mp ran
  obtain ⟨_, rfl⟩ := answered_now read
  obtain ⟨rfl, rfl⟩ := answered_stats (Db.ran_sql.mp asked)
  exact ⟨rfl, rfl, storedTallies_bump middle name _ _ _ _ now⟩

theorem ran_bumpDropped {dropped : Int}
    (ran : Ran (Answered clock) (Db.bumpDropped name dropped).run db outcome after) :
    outcome = .ok () ∧ AddsTallies name (0, 0, 0, 0, dropped) db after := by
  obtain ⟨now, middle, read, asked⟩ := Db.ran_access_bind.mp ran
  obtain ⟨_, rfl⟩ := answered_now read
  obtain ⟨rfl, rfl⟩ := answered_stats (Db.ran_sql.mp asked)
  exact ⟨rfl, rfl, storedTallies_bumpDropped middle name dropped now⟩

end Bumping

variable {db after : Database}

theorem AddsTallies.trans {name : String} {first second : Tallies} {middle : Database}
    (before : AddsTallies name first db middle) (later : AddsTallies name second middle after) :
    AddsTallies name (first + second) db after := by
  refine ⟨later.1.trans before.1, fun topic => ?_⟩
  rw [later.2, before.2, add_assoc]
  unfold talliesFor
  split
  · rfl
  · rfl

theorem ran_acceptDropped {clock : Nat → Prop} {topic : String} {outcome : Except DbError String}
    (ran : Ran (Answered clock) (Db.acceptDropped topic).run db outcome after) :
    (∃ id, outcome = .ok id) ∧ AddsTallies topic (1, 0, 0, 0, 1) db after := by
  obtain ⟨id, drawn, read, rest⟩ := Db.ran_access_bind.mp ran
  obtain ⟨_, rfl⟩ := answered_newUuid read
  rcases ran_exceptBind.mp rest with ⟨_, accepted, first, rest⟩ | ⟨_, first, _⟩
  · obtain ⟨_, accepts⟩ := ran_bumpTopicStat first
    rcases ran_exceptBind.mp rest with ⟨_, dropped, second, rest⟩ | ⟨_, second, _⟩
    · obtain ⟨_, drops⟩ := ran_bumpDropped second
      obtain ⟨rfl, rfl⟩ := rest
      exact ⟨⟨id, rfl⟩, accepts.trans drops⟩
    · cases (ran_bumpDropped second).1
  · cases (ran_bumpTopicStat first).1

end CanglingBroker
