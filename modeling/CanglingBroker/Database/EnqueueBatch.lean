import CanglingBroker.Database.Alone
import CanglingBroker.Database.Counters

/-!
# A batch of messages and its items one by one

`enqueue_batch` splits its items by shard, stores each group in a transaction of its own and
puts the results back by position.  Seen without timestamps, that is the same as one call
for each item.
-/

namespace CanglingBroker

open Foundation
open Grouped (atPlace collect handleAll inOrder ofPlace)
open Program (Ran ran_bind ran_exceptBind)

/-! ## Rows without timestamps -/

def MessageRow.untimed (row : MessageRow) : MessageRow :=
  { row with createdAt := 0, nextAttemptAt := 0 }

def EnqueueInput.repeats (input : EnqueueInput) (row : MessageRow) : Bool :=
  decide (input.idempotencyKey ≠ none ∧ row.idempotencyKey = input.idempotencyKey)

/-- What storing one message does to rows that are seen without timestamps. -/
def storeOne (input : EnqueueInput) (rows : List MessageRow) :
    (String × Bool) × List MessageRow :=
  match rows.find? input.repeats with
  | some original => ((original.id, true), rows)
  | none => ((input.id, false), rows ++ [(input.row 0).untimed])

/-- The identifiers of the messages are new to the rows, and distinct. -/
def NewIds (inputs : List EnqueueInput) (rows : List MessageRow) : Prop :=
  (inputs.map EnqueueInput.id).Nodup ∧ ∀ input ∈ inputs, ∀ row ∈ rows, row.id ≠ input.id

section Storing

variable {input : EnqueueInput} {inputs : List EnqueueInput} {rows : List MessageRow}

theorem mem_storeOne {row : MessageRow} (member : row ∈ (storeOne input rows).2) :
    row ∈ rows ∨ row = (input.row 0).untimed := by
  unfold storeOne at member
  split at member
  · exact .inl member
  · rcases List.mem_append.mp member with stored | new
    · exact .inl stored
    · exact .inr (List.mem_singleton.mp new)

theorem NewIds.tail (new : NewIds (input :: inputs) rows) :
    NewIds inputs (storeOne input rows).2 := by
  obtain ⟨distinct, absent⟩ := new
  rw [List.map_cons, List.nodup_cons] at distinct
  refine ⟨distinct.2, fun other member row stored same => ?_⟩
  rcases mem_storeOne stored with old | rfl
  · exact absent other (.tail _ member) row old same
  · exact distinct.1 (List.mem_map.mpr ⟨other, member, same.symm⟩)

theorem enqueueItem_untimed {table : MessageTable} (now : Nat)
    (new : ∀ row ∈ table.rows, row.id ≠ input.id) :
    ∃ stored, enqueueItem input now table =
        .ok ((storeOne input (table.rows.map MessageRow.untimed)).1, stored) ∧
        stored.rows.map MessageRow.untimed =
          (storeOne input (table.rows.map MessageRow.untimed)).2 := by
  have seen : (table.rows.map MessageRow.untimed).find? input.repeats =
      (table.rows.find? input.repeats).map MessageRow.untimed :=
    List.find?_map
  unfold storeOne
  rw [seen]
  cases found : table.rows.find? input.repeats with
  | some original =>
    have repeated : input.idempotencyKey ≠ none ∧ original.idempotencyKey = input.idempotencyKey :=
      of_decide_eq_true (List.find?_some found : input.repeats original = true)
    obtain ⟨key, keyed⟩ := Option.ne_none_iff_exists'.mp repeated.1
    have clash : table.Conflicts (input.row now) :=
      ⟨original, List.mem_of_find?_eq_some found, .inr repeated⟩
    have first :
        (table.rows.find? fun stored => stored.idempotencyKey = some key) = some original := by
      rw [← found]
      congr 1
      funext row
      simp [EnqueueInput.repeats, keyed]
    refine ⟨table, ?_, rfl⟩
    unfold enqueueItem
    rw [if_pos clash, keyed]
    dsimp only
    rw [first]
    rfl
  | none =>
    have free : ¬ table.Conflicts (input.row now) := by
      rintro ⟨row, member, sameId | repeated⟩
      · exact new row member sameId
      · exact List.find?_eq_none.mp found row member (decide_eq_true repeated)
    refine ⟨table.insertOrIgnore (input.row now), ?_, ?_⟩
    · unfold enqueueItem
      rw [if_neg free]
      rfl
    · rw [Table.insertOrIgnore_rows, if_neg free, List.map_append]
      rfl

theorem enqueueGroup_untimed {group : List (EnqueueInput × Nat)} {table : MessageTable}
    (new : NewIds (group.map Prod.fst) (table.rows.map MessageRow.untimed)) :
    ∃ stored, enqueueGroup group table = .ok
        ((handleAll storeOne (group.map Prod.fst) (table.rows.map MessageRow.untimed)).1, stored) ∧
        stored.rows.map MessageRow.untimed =
          (handleAll storeOne (group.map Prod.fst) (table.rows.map MessageRow.untimed)).2 := by
  induction group generalizing table with
  | nil => exact ⟨table, rfl, rfl⟩
  | cons item _ ih =>
    obtain ⟨stored, one, rows⟩ :=
      enqueueItem_untimed item.2 fun row member =>
        new.2 item.1 (.head _) row.untimed (List.mem_map_of_mem member)
    have later := new.tail
    rw [← rows] at later
    obtain ⟨final, others, finalRows⟩ := ih later
    refine ⟨final, ?_, ?_⟩
    · simp only [enqueueGroup, one, others, List.map_cons, handleAll, rows]
    · simp only [List.map_cons, handleAll, ← rows, finalRows]

end Storing

/-! ## Recording what was counted -/

section Recording

variable {clock : Nat → Prop} {db after : Database}

theorem deltaCounts_foldl_tally (entries : List (String × TopicStatsDelta))
    (deltas : Dict String TopicStatsDelta) (topic : String) :
    deltaCounts (entries.foldl Db.tally deltas) topic =
      deltaCounts deltas topic +
        (entries.map fun entry => countsFor topic entry.1 entry.2).sum := by
  induction entries generalizing deltas with
  | nil => exact (add_zero _).symm
  | cons _ _ ih =>
    rw [List.foldl_cons, ih, Db.tally, deltaCounts_insert, List.map_cons, List.sum_cons, add_assoc]

theorem answered_recordStats {topic : String} {delta : TopicStatsDelta} {answer : Unit}
    (answered : Answered clock db (.access (.recordStats topic delta)) answer after) :
    after = { db with deltas := Db.tally db.deltas (topic, delta) } := by
  obtain ⟨choice, _, _, performed⟩ := answered
  cases performed
  rfl

/-- Recording adds the deltas of each topic, and does nothing else. -/
theorem ran_recordTallies {entries : List (String × TopicStatsDelta)}
    {outcome : Except DbError Unit}
    (ran : Ran (Answered clock) (Db.recordTallies entries).run db outcome after) :
    outcome = .ok () ∧ after = { db with deltas := after.deltas } ∧ ∀ topic,
        deltaCounts after.deltas topic = deltaCounts db.deltas topic +
            (entries.map fun entry => countsFor topic entry.1 entry.2).sum := by
  have recorded : ∀ {entries : List (String × TopicStatsDelta)} {db after : Database}
      {outcome : Except DbError (List Unit)},
      Ran (Answered clock)
          (Db.forEach (fun entry : String × TopicStatsDelta =>
            Db.access (.recordStats entry.1 entry.2)) entries).run db outcome after →
        (∃ results, outcome = .ok results) ∧
          after = { db with deltas := entries.foldl Db.tally db.deltas } := by
    intro entries
    induction entries with
    | nil =>
      rintro db _ _ ⟨rfl, rfl⟩
      exact ⟨⟨[], rfl⟩, rfl⟩
    | cons _ _ ih =>
      intro db after outcome ran
      rcases Db.ran_forEach_cons.mp ran with ⟨first, middle, one, others⟩ | ⟨problem, one, _⟩
      · obtain ⟨_, asked, _⟩ := Db.ran_access.mp one
        obtain rfl := answered_recordStats asked
        rcases others with ⟨later, tail, rfl⟩ | ⟨problem, tail, _⟩
        · exact ⟨⟨_, rfl⟩, (ih tail).2⟩
        · obtain ⟨⟨results, same⟩, _⟩ := ih tail
          cases same
      · obtain ⟨_, _, same⟩ := Db.ran_access.mp one
        cases same
  rcases ran_exceptBind.mp ran with ⟨_, _, looped, rfl, rfl⟩ | ⟨_, looped, _⟩
  · obtain ⟨_, rfl⟩ := recorded looped
    refine ⟨rfl, rfl, fun topic => ?_⟩
    have total := @deltaCounts_eq_sum topic (entries.foldl Db.tally ∅)
    rw [deltaCounts_foldl_tally, deltaCounts_empty, zero_add] at total
    rw [deltaCounts_foldl_tally, List.map_map, total]
    rfl
  · obtain ⟨⟨results, same⟩, _⟩ := recorded looped
    cases same

end Recording

/-! ## The shards of a batch -/

def Database.untimed (db : Database) (shard : ShardIndex) : List MessageRow :=
  (db.messages (.shard shard)).rows.map MessageRow.untimed

def SparesRest (db after : Database) : Prop :=
  after.deltas = db.deltas ∧ after.messages .control = db.messages .control

section Shards

variable {clock : Nat → Prop} {db after : Database}

theorem view_setMessages {View : Type} (view : MessageTable → View) (shard : ShardIndex)
    (table : MessageTable) :
    (fun other => view ((db.setMessages (.shard shard) table).messages (.shard other))) =
      Function.update (fun other => view (db.messages (.shard other))) shard (view table) := by
  funext other
  by_cases same : other = shard
  · subst same
    rw [Database.setMessages_messages_self, Function.update_self]
  · rw [Function.update_of_ne same, Database.setMessages_messages_of_ne (by simpa using same)]

theorem ran_times {Item : Type} {items : List Item} {outcome : Except DbError (List Nat)}
    (ran : Ran (Answered clock) (Db.forEach (fun _ => Db.access .now) items).run db outcome after) :
    ∃ times, outcome = .ok times ∧ times.length = items.length ∧ after = db := by
  induction items generalizing outcome with
  | nil =>
    obtain ⟨rfl, rfl⟩ := ran
    exact ⟨[], rfl, rfl, rfl⟩
  | cons _ _ ih =>
    rcases Db.ran_forEach_cons.mp ran with ⟨first, middle, one, others⟩ | ⟨problem, one, _⟩
    · obtain ⟨_, read, _⟩ := Db.ran_access.mp one
      obtain ⟨_, rfl⟩ := answered_now read
      rcases others with ⟨later, tail, rfl⟩ | ⟨problem, tail, _⟩
      · obtain ⟨times, same, length, rfl⟩ := ih tail
        cases same
        exact ⟨first :: later, rfl, congrArg Nat.succ length, rfl⟩
      · obtain ⟨times, same, _⟩ := ih tail
        cases same
    · obtain ⟨_, _, same⟩ := Db.ran_access.mp one
      cases same

variable {group : List (EnqueueInput × Nat)}

theorem answered_enqueue {store : Store} {results : List (String × Bool)} {table : MessageTable}
    {answer : Except DbError (List (String × Bool))}
    (accepted : enqueueGroup group (db.messages store) = .ok (results, table))
    (answered : Answered clock db (.sql (.enqueue store group)) answer after) :
    answer = .ok results ∧ after = db.setMessages store table := by
  obtain ⟨choice, works, _, performed⟩ := answered
  rw [perform, works, if_neg Bool.false_ne_true, Sql.execute, accepted] at performed
  cases performed
  exact ⟨rfl, rfl⟩

theorem ran_enqueueShard {shard : ShardIndex}
    {outcome : Except DbError (List ((EnqueueInput × Nat) × (String × Bool)))}
    (new : NewIds (group.map Prod.fst) (db.untimed shard))
    (ran : Ran (Answered clock) (Db.enqueueShard shard group).run db outcome after) :
    outcome = .ok (group.zip (handleAll storeOne (group.map Prod.fst) (db.untimed shard)).1) ∧
      after.untimed = Function.update db.untimed shard
          (handleAll storeOne (group.map Prod.fst) (db.untimed shard)).2 ∧
      SparesRest db after := by
  unfold Db.enqueueShard at ran
  split at ran
  · next nothing =>
    obtain ⟨rfl, rfl⟩ := ran
    obtain rfl := List.isEmpty_iff.mp nothing
    exact ⟨rfl, (Function.update_eq_self _ _).symm, rfl, rfl⟩
  · rcases ran_exceptBind.mp ran with ⟨times, middle, read, stored⟩ | ⟨problem, read, _⟩
    · obtain ⟨_, same, length, rfl⟩ := ran_times read
      cases same
      have items : (((group.map Prod.fst).zip times).map Prod.fst) = group.map Prod.fst :=
        List.map_fst_zip (by rw [List.length_map, length])
      rw [← items] at new
      obtain ⟨table, accepted, rows⟩ := enqueueGroup_untimed new
      rw [items] at accepted rows
      rcases ran_exceptBind.mp stored with ⟨results, reached, asked, rfl, rfl⟩ | ⟨_, asked, _⟩
      · obtain ⟨same, rfl⟩ := answered_enqueue accepted (Db.ran_sql.mp asked)
        cases same
        refine ⟨rfl, ?_, rfl, Database.setMessages_messages_of_ne Store.noConfusion _ _⟩
        refine (view_setMessages (fun table => table.rows.map MessageRow.untimed) _ _).trans ?_
        rw [rows]
        rfl
      · cases (answered_enqueue accepted (Db.ran_sql.mp asked)).1
    · obtain ⟨_, same, _⟩ := ran_times read
      cases same

theorem ran_enqueueShards {group : ShardIndex → List (EnqueueInput × Nat)}
    {outcome : Except DbError (List (List ((EnqueueInput × Nat) × (String × Bool))))}
    (new : ∀ shard, NewIds ((group shard).map Prod.fst) (db.untimed shard))
    (ran :
      Ran (Answered clock)
        (Db.forEach (fun shard => Db.enqueueShard shard (group shard)) allShards).run db outcome
        after) :
    outcome = .ok
        (allShards.map fun shard =>
          (group shard).zip
            (handleAll storeOne ((group shard).map Prod.fst) (db.untimed shard)).1) ∧
      (∀ shard,
        after.untimed shard =
          (handleAll storeOne ((group shard).map Prod.fst) (db.untimed shard)).2) ∧
      SparesRest db after := by
  exact Db.ran_forEach_shards Database.untimed
    (fun shard rows =>
      ((group shard).zip (handleAll storeOne ((group shard).map Prod.fst) rows).1,
        (handleAll storeOne ((group shard).map Prod.fst) rows).2))
    (fun shard rows => NewIds ((group shard).map Prod.fst) rows) (SparesRest db)
    (fun new spares ran =>
      have ⟨same, slots, spared⟩ := ran_enqueueShard new ran
      ⟨same, slots, spared.1.trans spares.1, spared.2.trans spares.2⟩)
    new ⟨rfl, rfl⟩ ran

end Shards

/-! ## The batch -/

def EnqueueInput.shard (input : EnqueueInput) : ShardIndex :=
  topicShard input.topic

def countedFor (topic : String) (entry : EnqueueInput × (String × Bool)) : Counts :=
  countsFor topic entry.1.topic (if entry.2.2 then { duplicates := 1 } else { accepted := 1 })

/-- What is seen of the queue: the rows of the shards without timestamps, and what is
counted in memory for each topic. -/
structure QueueView where
  rows : ShardIndex → List MessageRow
  counts : String → Counts

def Database.queueView (db : Database) : QueueView where
  rows := db.untimed
  counts := deltaCounts db.deltas

def enqueueOne (input : EnqueueInput) (view : QueueView) : (String × Bool) × QueueView :=
  let done := atPlace storeOne EnqueueInput.shard input view.rows
  (done.1,
    { rows := done.2
      counts := fun topic => view.counts topic + countedFor topic (input, done.1) })

/-- The identifiers of the messages are new to their shards, and distinct. -/
def NewToQueue (inputs : List EnqueueInput) (rows : ShardIndex → List MessageRow) : Prop :=
  (inputs.map EnqueueInput.id).Nodup ∧ ∀ input ∈ inputs, ∀ row ∈ rows input.shard, row.id ≠ input.id

section Batch

variable {clock : Nat → Prop} {db after : Database} {items : List EnqueueInput}

theorem handleAll_enqueueOne (view : QueueView) : handleAll enqueueOne items view =
    ((inOrder storeOne EnqueueInput.shard items view.rows).1,
      { rows := (inOrder storeOne EnqueueInput.shard items view.rows).2
        counts := fun topic =>
          view.counts topic +
            ((items.zip (inOrder storeOne EnqueueInput.shard items view.rows).1).map
              (countedFor topic)).sum }) := by
  induction items generalizing view with
  | nil => simp [handleAll, inOrder]
  | cons _ _ ih =>
    rw [handleAll, ih, Grouped.inOrder_cons]
    simp only [enqueueOne, atPlace, List.zip_cons_cons, List.map_cons, List.sum_cons, add_assoc]

theorem NewToQueue.group (new : NewToQueue items db.untimed) (shard : ShardIndex) : NewIds
    ((ofPlace (fun item : EnqueueInput × Nat => item.1.shard) shard items.zipIdx).map Prod.fst)
    (db.untimed shard) := by
  have whole : items.zipIdx.map Prod.fst = items := List.zipIdx_map_fst 0 items
  have part : ((ofPlace (fun item : EnqueueInput × Nat => item.1.shard) shard items.zipIdx).map
      Prod.fst).Sublist items := by
    have sub := (List.filter_sublist
      (p := fun item : EnqueueInput × Nat => decide (item.1.shard = shard))
      (l := items.zipIdx)).map Prod.fst
    rwa [whole] at sub
  refine ⟨new.1.sublist (part.map _), fun input member row stored => ?_⟩
  have here : input.shard = shard := by
    obtain ⟨item, kept, rfl⟩ := List.mem_map.mp member
    simpa using (List.mem_filter.mp kept).2
  exact new.2 input (part.subset member) row (here ▸ stored)

theorem ran_enqueueBatch {outcome : Except DbError (List (String × Bool))}
    (new : NewToQueue items db.untimed)
    (ran : Ran (Answered clock) (Db.enqueueBatch items).run db outcome after) :
    outcome = .ok (handleAll enqueueOne items db.queueView).1 ∧
      after.queueView = (handleAll enqueueOne items db.queueView).2 ∧
      after.messages .control = db.messages .control := by
  have distinct : allShards.Nodup := List.nodup_finRange _
  have covered : ∀ item ∈ items, item.shard ∈ allShards := fun item _ =>
    List.mem_finRange item.shard
  rw [handleAll_enqueueOne]
  rcases ran_exceptBind.mp ran with ⟨stored, middle, looped, rest⟩ | ⟨problem, looped, _⟩
  · obtain ⟨same, slots, spares⟩ := ran_enqueueShards new.group looped
    cases same
    rcases ran_exceptBind.mp rest with ⟨_, _, recorded, rfl, rfl⟩ | ⟨_, recorded, _⟩
    · obtain ⟨_, only, counts⟩ := ran_recordTallies recorded
      refine ⟨congrArg Except.ok ?_, ?_, ?_⟩
      · exact Grouped.filterMap_find_collect distinct covered
      · have rows :
            after.untimed = (inOrder storeOne EnqueueInput.shard items db.untimed).2 := by
          funext shard
          have same : after.untimed = middle.untimed := by
            rw [only]
            rfl
          rw [same, slots, Grouped.inOrder_slot,
            Grouped.map_ofPlace EnqueueInput.shard, List.zipIdx_map_fst]
        have counted : ∀ topic,
            deltaCounts after.deltas topic = deltaCounts db.deltas topic +
                ((items.zip (inOrder storeOne EnqueueInput.shard items db.untimed).1).map
                  (countedFor topic)).sum := by
          intro topic
          have collected : ((collect storeOne EnqueueInput.shard allShards items db.untimed).map
              fun entry => (entry.1.1, entry.2)).Perm
                (items.zip (inOrder storeOne EnqueueInput.shard items db.untimed).1) :=
            Grouped.map_collect_perm distinct covered
          rw [counts, spares.1, ← (collected.map (countedFor topic)).sum_eq]
          simp only [List.map_map]
          rfl
        rw [Database.queueView, rows]
        congr 1
        exact funext counted
      · rw [only]
        exact spares.2
    · cases (ran_recordTallies recorded).1
  · cases (ran_enqueueShards new.group looped).1

theorem NewToQueue.single {item : EnqueueInput} {rest : List EnqueueInput}
    {rows : ShardIndex → List MessageRow} (new : NewToQueue (item :: rest) rows) :
    NewToQueue [item] rows :=
  ⟨List.nodup_singleton _, fun input member =>
    new.2 input (List.mem_singleton.mp member ▸ (.head _))⟩

theorem NewToQueue.tail {item : EnqueueInput} {rest : List EnqueueInput} {view : QueueView}
    (new : NewToQueue (item :: rest) view.rows) :
    NewToQueue rest (enqueueOne item view).2.rows := by
  obtain ⟨distinct, absent⟩ := new
  rw [List.map_cons, List.nodup_cons] at distinct
  refine ⟨distinct.2, fun input member row stored same => ?_⟩
  have older := absent input (.tail _ member)
  by_cases here : input.shard = item.shard
  · have there : row ∈ (storeOne item (view.rows input.shard)).2 := by
      simpa [enqueueOne, atPlace, here] using stored
    rcases mem_storeOne there with old | rfl
    · exact older row old same
    · exact distinct.1 (List.mem_map.mpr ⟨input, member, same.symm⟩)
  · refine older row ?_ same
    simpa [enqueueOne, atPlace, here] using stored

theorem ran_oneByOne {outcome : Except DbError (List (List (String × Bool)))}
    (new : NewToQueue items db.untimed)
    (ran :
      Ran (Answered clock) (Db.forEach (fun item => Db.enqueueBatch [item]) items).run db outcome
        after) :
    outcome = .ok ((handleAll enqueueOne items db.queueView).1.map fun result => [result]) ∧
      after.queueView = (handleAll enqueueOne items db.queueView).2 ∧
      after.messages .control = db.messages .control := by
  have spec :=
    Db.ran_forEach_handleAll Database.queueView
      (fun item view => ([(enqueueOne item view).1], (enqueueOne item view).2))
      (fun rest view => NewToQueue rest view.rows)
      (fun reached => reached.messages .control = db.messages .control) ?_ new rfl ran
  · rwa [Grouped.handleAll_wrap enqueueOne fun result => [result]] at spec
  · intro item rest reached outcome later new control ran
    obtain ⟨same, view, spared⟩ := ran_enqueueBatch new.single ran
    exact ⟨same, view, new.tail, spared.trans control⟩

end Batch

/-- The same rows in every file, except for the instants they were stored at. -/
def SameRows (first second : Database) : Prop :=
  ∀ store, (first.messages store).rows.map MessageRow.untimed =
      (second.messages store).rows.map MessageRow.untimed

/-- Whatever the state of the database, the topics and keys of the messages and the readings
of the clock: when no statement fails, a batch of messages with new and distinct identifiers
returns, and returns at each position what a call for that message alone returns when the
messages are enqueued one by one; the rows and the deltas of every topic are the same. -/
theorem enqueueBatch_eq_oneByOne (db : Database) (items : List EnqueueInput)
    (new : NewToQueue items db.untimed) :
    (∃ results after,
        Ran (Answered fun _ => True) (Db.enqueueBatch items).run db (.ok results) after ∧
          results.length = items.length) ∧
      (∃ outcome after,
        Ran (Answered fun _ => True)
          (Db.forEach (fun item => Db.enqueueBatch [item]) items).run db outcome after) ∧
      ∀ outcome after outcome' after',
        Ran (Answered fun _ => True) (Db.enqueueBatch items).run db outcome after →
          Ran (Answered fun _ => True)
              (Db.forEach (fun item => Db.enqueueBatch [item]) items).run db outcome' after' →
            (∃ results, outcome = .ok results ∧
              outcome' = .ok (results.map fun result => [result])) ∧
              SameRows after after' ∧
              ∀ topic, deltaCounts after.deltas topic = deltaCounts after'.deltas topic := by
  refine ⟨?_, @exists_ran_answered _ (fun _ => True) 0 trivial _ db, ?_⟩
  · obtain ⟨outcome, after, ran⟩ :=
      @exists_ran_answered _ (fun _ => True) 0 trivial (Db.enqueueBatch items).run db
    obtain ⟨rfl, _⟩ := ran_enqueueBatch new ran
    exact ⟨_, after, ran, Grouped.length_handleAll _ items _⟩
  · intro outcome after outcome' after' batch singles
    obtain ⟨results, view, control⟩ := ran_enqueueBatch new batch
    obtain ⟨results', view', control'⟩ := ran_oneByOne new singles
    have same := view.trans view'.symm
    refine ⟨⟨_, results, results'⟩, fun store => ?_, fun topic => ?_⟩
    · cases store with
      | control => rw [control, control']
      | shard shard => exact congrFun (congrArg QueueView.rows same) shard
    · exact congrFun (congrArg QueueView.counts same) topic

/-- Two messages with one key on topics of one shard, and a third of another shard. -/
def keyedItems : List EnqueueInput :=
  [⟨"s13-m1", some "k", "jobs", [1], ""⟩, ⟨"s12-m2", none, "a", [2], ""⟩,
    ⟨"s13-m3", some "k", "z", [3], ""⟩]

theorem enqueueBatch_eq_oneByOne_keyed : NewToQueue keyedItems Database.empty.untimed ∧
    ∃ results after, Ran (Answered fun _ => True) (Db.enqueueBatch keyedItems).run Database.empty
        (.ok results) after ∧
        results.length = 3 := by
  have new : NewToQueue keyedItems Database.empty.untimed := by
    refine ⟨by decide, ?_⟩
    intro input _ row stored
    cases stored
  exact ⟨new, (enqueueBatch_eq_oneByOne _ _ new).1⟩

end CanglingBroker
