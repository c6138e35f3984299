import CanglingBroker.Foundation.Dict
import CanglingBroker.Foundation.Ledger
import CanglingBroker.Database.Requests

/-!
# Counters on their way to the catalogue

`record_topic_stats` adds to a map in memory, and `flush_topic_stats` moves the whole map
into the catalogue.  A flush takes the map before it first waits and puts it back when its
transaction fails; when the flush itself is dropped in between, nobody does.
-/

namespace CanglingBroker

open Foundation
open Program (Ensures ensures_bind ensures_map)

/-! ## Counts -/

abbrev Counts : Type := Int × Int × Int

def TopicStatsDelta.counts (delta : TopicStatsDelta) : Counts :=
  (delta.accepted, delta.duplicates, delta.delivered)

def TopicStats.counts (row : TopicStats) : Counts :=
  (row.accepted, row.duplicates, row.delivered)

theorem TopicStatsDelta.counts_add (left right : TopicStatsDelta) :
    (left.add right).counts = left.counts + right.counts :=
  rfl

def storedCounts (stats : Dict String TopicStats) (topic : String) : Counts :=
  ((stats.lookup topic).map TopicStats.counts).getD 0

def deltaCounts (deltas : Dict String TopicStatsDelta) (topic : String) : Counts :=
  ((deltas.lookup topic).map TopicStatsDelta.counts).getD 0

def countsFor (topic name : String) (delta : TopicStatsDelta) : Counts :=
  if name = topic then delta.counts else 0

section Counting

variable {topic : String}

theorem deltaCounts_empty : deltaCounts ∅ topic = 0 := rfl

theorem deltaCounts_eq_sum (deltas : Dict String TopicStatsDelta) : deltaCounts deltas topic =
    (deltas.entries.map fun entry => countsFor topic entry.1 entry.2).sum := by
  obtain ⟨entries, nodup⟩ := deltas
  change ((entries.dlookup topic).map TopicStatsDelta.counts).getD 0 = _
  induction entries with
  | nil => rfl
  | cons entry _ ih =>
    obtain ⟨absent, nodup⟩ := List.nodupKeys_cons.mp nodup
    rw [List.map_cons, List.sum_cons, ← ih nodup]
    by_cases same : entry.1 = topic
    · subst same
      rw [countsFor, if_pos rfl, List.dlookup_cons_eq, List.dlookup_eq_none.mpr absent]
      exact (add_zero _).symm
    · rw [countsFor, if_neg same, List.dlookup_cons_ne _ _ (Ne.symm same), zero_add]

theorem deltaCounts_insert (deltas : Dict String TopicStatsDelta) (name : String)
    (delta : TopicStatsDelta) :
    deltaCounts (deltas.insert name (((deltas.lookup name).getD {}).add delta)) topic =
      deltaCounts deltas topic + countsFor topic name delta := by
  unfold deltaCounts
  rw [Dict.lookup_insert]
  by_cases same : topic = name
  · subst same
    rw [if_pos rfl, countsFor, if_pos rfl, Option.map_some, Option.getD_some,
      TopicStatsDelta.counts_add]
    cases deltas.lookup topic <;> rfl
  · rw [if_neg same, countsFor, if_neg (Ne.symm same), add_zero]

theorem deltaCounts_addDeltas (pending deltas : Dict String TopicStatsDelta) :
    deltaCounts (addDeltas pending deltas) topic =
      deltaCounts deltas topic + deltaCounts pending topic := by
  rw [deltaCounts_eq_sum pending, addDeltas]
  generalize pending.entries = entries
  induction entries generalizing deltas with
  | nil => exact (add_zero _).symm
  | cons _ _ ih =>
    rw [List.foldl_cons, ih, deltaCounts_insert, List.map_cons, List.sum_cons, add_assoc]

theorem storedCounts_flushOne (now : Nat) (stats : Dict String TopicStats)
    (entry : String × TopicStatsDelta) :
    storedCounts (flushOne now stats entry) topic =
      storedCounts stats topic + countsFor topic entry.1 entry.2 := by
  unfold flushOne upsert storedCounts countsFor
  by_cases same : topic = entry.1
  · subst same
    rw [if_pos rfl]
    split
    · next absent =>
      rw [AList.lookup_insert, absent]
      exact (zero_add _).symm
    · next row found =>
      rw [AList.lookup_insert, found]
      rfl
  · rw [if_neg (Ne.symm same), add_zero]
    split
    · rw [AList.lookup_insert_ne same]
    · rw [AList.lookup_insert_ne same]

theorem storedCounts_flush (now : Nat) (stats : Dict String TopicStats)
    (pending : Dict String TopicStatsDelta) :
    storedCounts
        ((pending.entries.map fun entry => (entry.1, entry.2)).foldl (flushOne now) stats)
        topic =
      storedCounts stats topic + deltaCounts pending topic := by
  rw [deltaCounts_eq_sum pending]
  generalize pending.entries = entries
  induction entries generalizing stats with
  | nil => exact (add_zero _).symm
  | cons _ _ ih =>
    rw [List.map_cons, List.foldl_cons, ih, storedCounts_flushOne,
      List.map_cons, List.sum_cons, add_assoc]

end Counting

/-! ## Recording and flushing -/

inductive CounterCall where
  | record (topic : String) (delta : TopicStatsDelta)
  | flush
  deriving DecidableEq, Repr

/-- `record_topic_stats` and `flush_topic_stats`. -/
def CounterCall.body : CounterCall → Db Value
  | .record topic delta => (fun _ => .unit) <$> Db.access (.recordStats topic delta)
  | .flush => .count <$> Db.flushTopicStats

def counterComponent :
    Component CounterCall Action Reply Database Choice Outcome where
  perform := perform
  crash := Database.restart
  program := fun call => call.body.run

namespace Counters

abbrev Calls : Type := Pool CounterCall Action Reply Database Outcome

abbrev Event : Type := DropEvent CounterCall Choice

/-- Where a call can be dropped.  The deltas of a failed flush are put back without
waiting for anything. -/
def awaits : Action → Bool
  | .access (.restoreStats _) => false
  | _ => true

def step : Calls → Event → Option Calls :=
  Pool.dropStep counterComponent awaits

/-- The deltas that a flush has taken and neither stored nor put back. -/
def heldOn : Path → Dict String TopicStatsDelta
  | [] => ∅
  | ⟨.access .takeStats, pending⟩ :: _ => pending
  | ⟨.sql (.stats (.flush _ _)), .ok _⟩ :: _ => ∅
  | ⟨.access (.restoreStats _), _⟩ :: _ => ∅
  | _ :: path => heldOn path

/-- What a call on its path may ask for. -/
def May (_ : CounterCall) (path : Path) : Action → Prop
  | .access (.recordStats _ _) | .access .now => True
  | .access .takeStats => heldOn path = ∅
  | .sql (.stats (.flush entries _)) =>
    entries = (heldOn path).entries.map fun entry => (entry.1, entry.2)
  | .access (.restoreStats pending) => pending = heldOn path
  | _ => False

def Returns (_ : CounterCall) (path : Path) (_ : Outcome) : Prop :=
  (heldOn path).entries = []

theorem ensures_body (call : CounterCall) : Ensures (May call) (Returns call) [] call.body.run := by
  cases call with
  | record => exact ⟨trivial, fun _ => rfl⟩
  | flush =>
    refine ensures_map ?_
    refine Db.ensures_access.mpr ⟨rfl, fun pending => ?_⟩
    split
    · next nothing => exact List.isEmpty_iff.mp nothing
    · refine Db.ensures_access.mpr ⟨trivial, fun now => ?_⟩
      refine ensures_bind.mpr (Db.ensures_sql.mpr ⟨rfl, fun _ => ?_, fun problem => ?_⟩)
      · exact rfl
      · exact Db.ensures_access.mpr ⟨rfl, fun _ => rfl⟩

def adds (topic : String) : Exchange Action Reply → Counts
  | ⟨.access (.recordStats name delta), _⟩ => countsFor topic name delta
  | _ => 0

/-- What the database has counted for a topic, in the catalogue and in memory. -/
def kept (topic : String) (db : Database) : Counts :=
  storedCounts db.topicStats topic + deltaCounts db.deltas topic

/-- Every action moves deltas between the catalogue, the map in memory and the flush that
has taken them. -/
theorem moves {topic : String} {choice : Choice} {current reached : Database} {request : Action}
    {answer : Reply request} {call : CounterCall} {path : Path} (may : May call path request)
    (performed : perform choice current request = some (answer, reached)) :
    kept topic reached + deltaCounts (heldOn (⟨request, answer⟩ :: path)) topic =
      kept topic current + deltaCounts (heldOn path) topic + adds topic ⟨request, answer⟩ := by
  unfold May at may
  split at may
  · next name delta =>
    cases performed
    change
      storedCounts current.topicStats topic + deltaCounts _ topic +
          deltaCounts (heldOn path) topic = _
    rw [deltaCounts_insert]
    change _ = kept topic current + _ + countsFor topic name delta
    rw [kept]
    abel
  · cases performed
    exact (add_zero _).symm
  · cases performed
    rw [may]
    change storedCounts _ topic + deltaCounts ∅ topic + deltaCounts current.deltas topic = _
    rw [deltaCounts_empty, add_zero, add_zero]
    exact (add_zero _).symm
  · next entries now =>
    subst may
    simp only [perform] at performed
    split at performed <;> cases performed
    · exact (add_zero _).symm
    · change
        storedCounts (List.foldl (flushOne now) current.topicStats _) topic +
            deltaCounts current.deltas topic + deltaCounts ∅ topic =
          kept topic current + deltaCounts (heldOn path) topic + 0
      rw [storedCounts_flush, deltaCounts_empty, kept]
      abel
  · cases performed
    change
      storedCounts current.topicStats topic + deltaCounts (addDeltas _ current.deltas) topic +
          deltaCounts ∅ topic =
        kept topic current + deltaCounts (heldOn path) topic + 0
    rw [may, deltaCounts_addDeltas, deltaCounts_empty, kept]
    abel
  · exact may.elim

/-- The ledger of one topic. -/
def ledger (topic : String) : Accounts (@Eq Counts) counterComponent May Returns where
  kept := kept topic
  holds := fun path => deltaCounts (heldOn path) topic
  adds := adds topic
  holds_nil := rfl
  moves := moves
  returns := by
    intro call path outcome returned
    rw [deltaCounts_eq_sum, show (heldOn path).entries = [] from returned]
    rfl

/-- The deltas that a running call has taken and neither stored nor put back. -/
def held (topic : String) (pool : Calls) (thread : Nat) : Counts :=
  if (pool.threads thread).isSome then
    deltaCounts (heldOn (ownPath thread pool.history)) topic
  else
    0

/-- The counters of the catalogue, the deltas in memory and the deltas of the running
flushes are together what was there at the start and what was recorded since. -/
def Conserved (topic : String) (initial : Database) (pool : Calls) : Prop :=
  storedCounts pool.shared.topicStats topic + deltaCounts pool.shared.deltas topic +
      ∑ thread ∈ Finset.range pool.fresh, held topic pool thread =
    storedCounts initial.topicStats topic + deltaCounts initial.deltas topic +
      (pool.history.map fun entry => adds topic entry.exchange).sum

instance (topic : String) (initial : Database) (pool : Calls) :
    Decidable (Conserved topic initial pool) :=
  inferInstanceAs (Decidable (_ = _))

def DropsNone (pool : Calls) : Event → Prop
  | .drop thread => ∀ topic, held topic pool thread = 0
  | _ => True

end Counters

/-- **Counters are conserved.**  For every interleaving of `record_topic_stats` and
`flush_topic_stats`, whose transactions may fail: no delta of any topic is lost or counted
twice at any moment, exactly when no flush is dropped that holds deltas. -/
theorem counters_conserved_iff (initial : Database) (events : List Counters.Event)
    (pool : Counters.Calls)
    (ran : run Counters.step (Pool.start initial) events = some pool) :
    (∀ topic,
        Throughout Counters.step (Counters.Conserved topic initial) (Pool.start initial) events) ↔
      Along Counters.step Counters.DropsNone (Pool.start initial)
        events := by
  have each : ∀ topic,
      Throughout Counters.step (Counters.Conserved topic initial) (Pool.start initial) events ↔
        Along Counters.step
          (fun current event =>
            ∀ thread, event = .drop thread → Counters.held topic current thread = 0)
          (Pool.start initial) events :=
    fun topic =>
      Accounts.balanced_throughout_iff Counters.ensures_body (Counters.ledger topic) ran
  have together : (fun (current : Counters.Calls) (event : Counters.Event) =>
      ∀ topic thread, event = .drop thread → Counters.held topic current thread = 0) =
        Counters.DropsNone := by
    funext current event
    cases event with
    | drop thread =>
      refine propext ⟨fun none topic => none topic thread rfl, ?_⟩
      rintro none topic _ ⟨⟩
      exact none topic
    | spawn | advance => exact eq_true nofun
  rw [forall_congr' each, along_forall_iff, together]

namespace Counters

/-- Test that a call that is dropped has taken nothing. -/
def dropsCheck (pool : Calls) : Event → Bool
  | .drop thread => (heldOn (ownPath thread pool.history)).entries.isEmpty
  | _ => true

theorem dropsNone_of_check (pool : Calls) (event : Event) (checked : dropsCheck pool event = true) :
    DropsNone pool event := by
  cases event with
  | drop =>
    intro topic
    rw [held, deltaCounts_eq_sum, List.isEmpty_iff.mp checked]
    exact ite_self _
  | spawn => trivial
  | advance => trivial

/-- A delta is recorded, one flush fails, one is dropped before it starts and one
goes through. -/
def flushedAtLast : List Event :=
  [.spawn (.record "jobs" { accepted := 1 }), .advance 0 {}, .spawn .flush, .advance 1 {},
    .advance 1 { clock := 4 }, .advance 1 { fails := true }, .advance 1 {},
    .spawn .flush, .drop 2, .spawn .flush, .advance 3 {}, .advance 3 { clock := 5 },
    .advance 3 {}]

end Counters

theorem counters_conserved_iff_flushedAtLast : ∃ pool,
    run Counters.step (Pool.start Database.empty) Counters.flushedAtLast = some pool ∧
      storedCounts pool.shared.topicStats "jobs" = (1, 0, 0) ∧
      ∀ topic, Throughout Counters.step (Counters.Conserved topic Database.empty)
          (Pool.start Database.empty) Counters.flushedAtLast := by
  obtain ⟨pool, ran, stored⟩ : ∃ pool,
      run Counters.step (Pool.start Database.empty) Counters.flushedAtLast = some pool ∧
        storedCounts pool.shared.topicStats "jobs" = (1, 0, 0) :=
    exists_some_of_check (by decide +kernel)
  have checked : checkAlong Counters.step Counters.dropsCheck
      (Pool.start Database.empty) Counters.flushedAtLast = true := by
    decide +kernel
  refine ⟨pool, ran, stored, ?_⟩
  exact (counters_conserved_iff _ _ _ ran).mpr (along_of_check Counters.dropsNone_of_check checked)

/-- A flush that is dropped after it has taken the deltas. -/
def Counters.droppedFlush : List Counters.Event :=
  [.spawn (.record "jobs" { accepted := 1 }), .advance 0 {}, .spawn .flush, .advance 1 {}, .drop 1]

/-- The delta that it held is counted nowhere. -/
theorem counters_lost_by_drop : ∃ pool,
    run Counters.step (Pool.start Database.empty) Counters.droppedFlush = some pool ∧
      ¬ Counters.Conserved "jobs" Database.empty pool :=
  exists_some_of_check (by decide +kernel)

end CanglingBroker
