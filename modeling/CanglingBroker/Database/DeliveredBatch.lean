import CanglingBroker.Database.EnqueueBatch
import CanglingBroker.Database.Reports

/-!
# A batch of acknowledgements and its pairs one by one

`delivered_batch` looks up the shard of each pair, acknowledges the pairs of a shard in one
transaction and counts what the transactions return.  Seen without `delivered_at`, its
results and rows are those of one call for each pair, in order, and it counts every row it
moves to delivered once.
-/

namespace CanglingBroker

open Foundation
open Grouped (atPlace handleAll inOrder ofPlace)
open Program (Ran ran_exceptBind)

/-! ## Rows without the instant of their delivery -/

def MessageRow.undated (row : MessageRow) : MessageRow :=
  { row with deliveredAt := none }

/-- What acknowledging one pair does to rows that are seen without `delivered_at`. -/
def acknowledgeOne (pair : String × String) (rows : List MessageRow) :
    Option String × List MessageRow :=
  ((rows.find? fun row => row.held pair.1 pair.2).map fun row => row.topic,
    rows.map fun row =>
      if row.held pair.1 pair.2 then (row.acknowledged 0).undated else row)

def movedTo (topic : String) (rows later : List MessageRow) : Nat :=
  rows.countP fun row =>
    decide
      (row.topic = topic ∧ row.status ≠ .delivered ∧
        ∃ now ∈ later, now.id = row.id ∧ now.status = .delivered)

section Acknowledging

variable {rows : List MessageRow} {topic : String}

theorem deliverGroup_undated (now : Nat) (group : List (String × String)) (table : MessageTable) :
    (deliverGroup now group table).1 =
        (handleAll acknowledgeOne group (table.rows.map MessageRow.undated)).1 ∧
      (deliverGroup now group table).2.rows.map MessageRow.undated =
        (handleAll acknowledgeOne group (table.rows.map MessageRow.undated)).2 := by
  induction group generalizing table with
  | nil => exact ⟨rfl, rfl⟩
  | cons pair _ ih =>
    have rows :
        (((Update.deliver now pair.1 pair.2).execute [] table).2.rows.map MessageRow.undated) =
          (acknowledgeOne pair (table.rows.map MessageRow.undated)).2 := by
      rw [Update.execute_rows, acknowledgeOne, List.map_map, List.map_map]
      refine List.map_congr_left fun row _ => ?_
      rw [Function.comp_apply, Function.comp_apply, Update.rewrite_deliver]
      exact apply_ite MessageRow.undated _ _ _
    have topics :
        (((Update.deliver now pair.1 pair.2).execute [] table).1.head?.map fun row => row.topic) =
          (acknowledgeOne pair (table.rows.map MessageRow.undated)).1 := by
      rw [acknowledgeOne, List.find?_map, Update.execute, List.head?_map, List.head?_filter,
        Option.map_map, Option.map_map]
      rfl
    obtain ⟨results, later⟩ := ih ((Update.deliver now pair.1 pair.2).execute [] table).2
    rw [rows] at results later
    refine ⟨?_, later⟩
    rw [deliverGroup, handleAll, ← topics, results]

theorem ids_acknowledgeOne (pair : String × String) (rows : List MessageRow) :
    ((acknowledgeOne pair rows).2.map fun row => row.id) = rows.map fun row => row.id := by
  rw [acknowledgeOne, List.map_map]
  refine List.map_congr_left fun row _ => ?_
  rw [Function.comp_apply]
  split <;> rfl

theorem held_undated_acknowledged (id lease : String) (row : MessageRow) :
    (row.acknowledged 0).undated.held id lease = false := by
  simp [MessageRow.held, MessageRow.undated, MessageRow.acknowledged]

theorem handleAll_acknowledgeOne_rows (pairs : List (String × String)) (rows : List MessageRow) :
    (handleAll acknowledgeOne pairs rows).2 = rows.map fun row =>
        if row.presented pairs then (row.acknowledged 0).undated else row := by
  induction pairs generalizing rows with
  | nil => simp [handleAll, MessageRow.presented]
  | cons pair _ ih =>
    rw [handleAll, ih, acknowledgeOne, List.map_map]
    refine List.map_congr_left fun row _ => ?_
    rw [Function.comp_apply, MessageRow.presented_cons]
    cases row.held pair.1 pair.2 with
    | true => simp [MessageRow.presented, held_undated_acknowledged]
    | false => simp

theorem count_find_held (distinct : (rows.map fun row => row.id).Nodup) (pair : String × String) :
    (if (rows.find? fun row => row.held pair.1 pair.2).map (fun row => row.topic) = some topic
      then 1 else 0) =
      (rows.filter fun row => row.held pair.1 pair.2).countP fun row => row.topic = topic := by
  rw [← List.head?_filter]
  have ids : ((rows.filter fun row => row.held pair.1 pair.2).map fun row => row.id).Nodup :=
    distinct.sublist (List.filter_sublist.map _)
  have own : ∀ row ∈ rows.filter fun row => row.held pair.1 pair.2, row.id = pair.1 :=
    fun row member => (MessageRow.held_iff.mp (List.mem_filter.mp member).2).1
  generalize (rows.filter fun row => row.held pair.1 pair.2) = found at ids own ⊢
  match found with
  | [] => simp
  | [row] => simp [List.countP_cons]
  | first :: second :: others =>
    have same : first.id = second.id := (own first (by simp)).trans (own second (by simp)).symm
    simp [same] at ids

/-- As many pairs end a row of the topic as rows of the topic are presented. -/
theorem count_acknowledged (distinct : (rows.map fun row => row.id).Nodup)
    (pairs : List (String × String)) :
    (handleAll acknowledgeOne pairs rows).1.count (some topic) =
      rows.countP fun row => row.presented pairs && decide (row.topic = topic) := by
  induction pairs generalizing rows with
  | nil => simp [handleAll, MessageRow.presented]
  | cons pair _ ih =>
    have later : ((acknowledgeOne pair rows).2.map fun row => row.id).Nodup :=
      ids_acknowledgeOne pair rows ▸ distinct
    rw [handleAll, List.count_cons, ih later,
      List.countP_eq_countP_filter_add rows _ fun row => row.held pair.1 pair.2, add_comm]
    congr 1
    · simp only [beq_iff_eq]
      rw [acknowledgeOne, count_find_held distinct]
      refine List.countP_congr fun row member => ?_
      rw [MessageRow.presented_cons, (List.mem_filter.mp member).2]
      simp
    · rw [acknowledgeOne, List.countP_map, List.countP_filter]
      refine List.countP_congr fun row _ => ?_
      rw [Function.comp_apply, MessageRow.presented_cons]
      cases row.held pair.1 pair.2 with
      | true => simp [MessageRow.presented, held_undated_acknowledged]
      | false => simp

/-- The rows moved to delivered are the ones that were presented. -/
theorem movedTo_acknowledged (distinct : (rows.map fun row => row.id).Nodup)
    (pairs : List (String × String)) :
    movedTo topic rows (handleAll acknowledgeOne pairs rows).2 =
      rows.countP fun row => row.presented pairs && decide (row.topic = topic) := by
  rw [handleAll_acknowledgeOne_rows]
  refine List.countP_congr fun row member => ?_
  rw [decide_eq_true_iff, Bool.and_eq_true, decide_eq_true_iff]
  constructor
  · rintro ⟨onTopic, undelivered, now, listed, sameId, delivered⟩
    obtain ⟨other, isRow, rfl⟩ := List.mem_map.mp listed
    refine ⟨?_, onTopic⟩
    by_cases presented : other.presented pairs = true
    · rw [if_pos presented] at sameId
      rwa [← List.inj_on_of_nodup_map distinct isRow member sameId]
    · rw [if_neg presented] at sameId delivered
      rw [List.inj_on_of_nodup_map distinct isRow member sameId] at delivered
      exact absurd delivered undelivered
  · rintro ⟨presented, onTopic⟩
    obtain ⟨pair, _, held⟩ := MessageRow.presented_iff.mp presented
    have processing := (MessageRow.held_iff.mp held).2.2
    refine ⟨onTopic, by simp [processing], _, List.mem_map_of_mem member, ?_⟩
    rw [if_pos presented]
    exact ⟨rfl, rfl⟩

end Acknowledging

/-! ## Where the pairs go -/

/-- The rows of a shard without the instants of their delivery. -/
def Database.undated (db : Database) (shard : ShardIndex) : List MessageRow :=
  (db.messages (.shard shard)).rows.map MessageRow.undated

/-- The rows a pair can end; a pair without a shard can end none. -/
def Database.filed (db : Database) (place : Option ShardIndex) : List MessageRow :=
  place.elim [] db.undated

/-- The shard an identifier names, or else the first one whose rows have it. -/
def placeIn (rows : ShardIndex → List MessageRow) (id : String) : Option ShardIndex :=
  match messageIdShard id with
  | some shard => some shard
  | none =>
    allShards.findSome? fun shard =>
      if id ∈ (rows shard).map fun row => row.id then some shard else none

def Database.placeOf (db : Database) (pair : String × String) : Option ShardIndex :=
  placeIn db.undated pair.1

section Placing

variable {clock : Nat → Prop} {db after : Database}

theorem placeIn_congr {rows later : ShardIndex → List MessageRow}
    (same : ∀ shard, ((later shard).map fun row => row.id) = (rows shard).map fun row => row.id) :
    placeIn later = placeIn rows := by
  funext id
  unfold placeIn
  simp only [same]

theorem ids_undated (shard : ShardIndex) : ((db.undated shard).map fun row => row.id) =
    (db.messages (.shard shard)).rows.map fun row => row.id := by
  rw [Database.undated, List.map_map]
  rfl

theorem answered_selectId {store : Store} {id : String}
    {answer : Except DbError (Option MessageRow)}
    (answered : Answered clock db (.sql (.selectId store id)) answer after) :
    answer = .ok ((db.messages store).rows.find? fun row => row.id = id) ∧ after = db := by
  obtain ⟨choice, works, _, performed⟩ := answered
  rw [perform, works, if_neg Bool.false_ne_true, Sql.execute] at performed
  cases performed
  exact ⟨rfl, rfl⟩

theorem ran_shardIndexForId {id : String} {outcome : Except DbError (Option ShardIndex)}
    (ran : Ran (Answered clock) (Db.shardIndexForId id).run db outcome after) :
    outcome = .ok (placeIn db.undated id) ∧ after = db := by
  unfold Db.shardIndexForId at ran
  unfold placeIn
  cases named : messageIdShard id with
  | some =>
    rw [named] at ran
    exact ran
  | none =>
    rw [named] at ran
    refine Db.ran_firstSome_reads ?_ ran
    intro shard outcome after ran
    rcases ran_exceptBind.mp ran with ⟨found, middle, asked, rfl, rfl⟩ | ⟨_, asked, _⟩
    · obtain ⟨same, rfl⟩ := answered_selectId (Db.ran_sql.mp asked)
      cases same
      refine ⟨congrArg Except.ok ?_, rfl⟩
      rw [ids_undated]
      cases found : (after.messages (.shard shard)).rows.find? fun row => row.id = id with
      | some row =>
        have there : id ∈ (after.messages (.shard shard)).rows.map fun row => row.id :=
          List.mem_map.mpr
            ⟨row, List.mem_of_find?_eq_some found, by simpa using List.find?_some found⟩
        rw [if_pos there]
        rfl
      | none =>
        have absent : id ∉ (after.messages (.shard shard)).rows.map fun row => row.id := by
          intro member
          obtain ⟨row, listed, same⟩ := List.mem_map.mp member
          exact List.find?_eq_none.mp found row listed (decide_eq_true same)
        rw [if_neg absent]
        rfl
    · cases (answered_selectId (Db.ran_sql.mp asked)).1

end Placing

/-! ## The shards of a batch -/

/-- The acknowledgements that ended a row, with its topic. -/
def endedOf (group : List Db.Ack) (topics : List (Option String)) : List (Db.Ack × String) :=
  (group.zip topics).filterMap fun entry => entry.2.map fun topic => (entry.1, topic)

section Shards

variable {clock : Nat → Prop} {db after : Database}

theorem ran_deliverShard {now : Nat} {shard : ShardIndex} {group : List Db.Ack}
    {outcome : Except DbError (List (Db.Ack × String))}
    (ran : Ran (Answered clock) (Db.deliverShard now shard group).run db outcome after) :
    outcome = .ok
        (endedOf group (handleAll acknowledgeOne (group.map Db.Ack.pair) (db.undated shard)).1) ∧
      after.undated = Function.update db.undated shard
          (handleAll acknowledgeOne (group.map Db.Ack.pair) (db.undated shard)).2 ∧
      SparesRest db after := by
  unfold Db.deliverShard at ran
  split at ran
  · next nothing =>
    obtain ⟨rfl, rfl⟩ := ran
    obtain rfl := List.isEmpty_iff.mp nothing
    exact ⟨rfl, (Function.update_eq_self _ _).symm, rfl, rfl⟩
  · obtain ⟨topics, rows⟩ :=
      deliverGroup_undated now (group.map Db.Ack.pair) (db.messages (.shard shard))
    have answers : ∀ {answer : Except DbError (List (Option String))} {reached : Database},
        Ran (Answered clock)
            (Db.sql (.deliver (.shard shard) now (group.map Db.Ack.pair))).run db answer
            reached →
          answer = .ok (deliverGroup now (group.map Db.Ack.pair) (db.messages (.shard shard))).1 ∧
            reached = db.setMessages (.shard shard)
                (deliverGroup now (group.map Db.Ack.pair) (db.messages (.shard shard))).2 := by
      intro answer reached asked
      obtain ⟨choice, works, _, performed⟩ := Db.ran_sql.mp asked
      rw [perform, works, if_neg Bool.false_ne_true, Sql.execute] at performed
      cases performed
      exact ⟨rfl, rfl⟩
    rcases ran_exceptBind.mp ran with ⟨results, reached, asked, rfl, rfl⟩ | ⟨_, asked, _⟩
    · obtain ⟨same, rfl⟩ := answers asked
      cases same
      refine ⟨?_, ?_, rfl, Database.setMessages_messages_of_ne Store.noConfusion _ _⟩
      · rw [topics]
        rfl
      · refine (view_setMessages (fun table => table.rows.map MessageRow.undated) _ _).trans ?_
        rw [rows]
        rfl
    · cases (answers asked).1

theorem ran_places {acks : List Db.Ack} {outcome : Except DbError (List (Option ShardIndex))}
    (ran :
      Ran (Answered clock) (Db.forEach (fun ack => Db.shardIndexForId ack.id) acks).run db
        outcome after) :
    outcome = .ok (acks.map fun ack => db.placeOf ack.pair) ∧ after = db :=
  Db.ran_forEach_reads (fun looked => ran_shardIndexForId looked) ran

theorem ran_deliverShards {now : Nat} {group : ShardIndex → List Db.Ack}
    {outcome : Except DbError (List (List (Db.Ack × String)))}
    (ran :
      Ran (Answered clock)
        (Db.forEach (fun shard => Db.deliverShard now shard (group shard)) allShards).run db
        outcome after) :
    outcome = .ok
        (allShards.map fun shard =>
          endedOf (group shard)
            (handleAll acknowledgeOne ((group shard).map Db.Ack.pair) (db.undated shard)).1) ∧
      (∀ shard,
        after.undated shard =
          (handleAll acknowledgeOne ((group shard).map Db.Ack.pair) (db.undated shard)).2) ∧
      SparesRest db after :=
  Db.ran_forEach_shards Database.undated
    (fun shard rows =>
      (endedOf (group shard) (handleAll acknowledgeOne ((group shard).map Db.Ack.pair) rows).1,
        (handleAll acknowledgeOne ((group shard).map Db.Ack.pair) rows).2))
    (fun _ _ => True) (SparesRest db)
    (fun _ spares ran =>
      have ⟨same, slots, spared⟩ := ran_deliverShard ran
      ⟨same, slots, spared.1.trans spares.1, spared.2.trans spares.2⟩)
    (fun _ => trivial) ⟨rfl, rfl⟩ ran

end Shards

/-! ## The batch -/

/-- How many rows of a topic were moved to delivered, in all shards. -/
def Database.moved (topic : String) (db after : Database) : Nat :=
  (allShards.map fun shard =>
    movedTo topic (db.messages (.shard shard)).rows (after.messages (.shard shard)).rows).sum

section Batch

variable {clock : Nat → Prop} {db after : Database}

theorem movedTo_undated (topic : String) (rows later : List MessageRow) :
    movedTo topic (rows.map MessageRow.undated) (later.map MessageRow.undated) =
      movedTo topic rows later := by
  unfold movedTo
  rw [List.countP_map]
  refine List.countP_congr fun row _ => ?_
  rw [Function.comp_apply, decide_eq_true_iff, decide_eq_true_iff]
  simp [MessageRow.undated]

theorem groupOf_places (acks : List Db.Ack) (place : Db.Ack → Option ShardIndex)
    (shard : ShardIndex) :
    Db.groupOf (acks.zip (acks.map place)) shard = ofPlace place (some shard) acks := by
  have placed : acks.zip (acks.map place) = acks.map fun ack => (ack, place ack) := by
    simpa using (List.zip_map' : (acks.map id).zip (acks.map place) = _)
  rw [Db.groupOf, placed, List.filter_map, List.map_map]
  exact List.map_id _

theorem endedOf_nowhere (group : List Db.Ack) (pairs : List (String × String)) :
    endedOf group (handleAll acknowledgeOne pairs []).1 = [] := by
  have nothing : ∀ out ∈ (handleAll acknowledgeOne pairs []).1, out = none := by
    induction pairs with
    | nil => simp [handleAll]
    | cons _ _ ih =>
      intro out member
      rcases List.mem_cons.mp member with rfl | later
      · rfl
      · exact ih out later
  refine List.filterMap_eq_nil_iff.mpr fun entry member => ?_
  rw [nothing entry.2 (List.of_mem_zip member).2]
  rfl

/-- What the transactions of the shards end is what the pairs end in order. -/
theorem endedOf_perm (acks : List Db.Ack) : (allShards.flatMap fun shard =>
    endedOf (ofPlace (fun ack => db.placeOf ack.pair) (some shard) acks)
      (handleAll acknowledgeOne
        ((ofPlace (fun ack => db.placeOf ack.pair) (some shard) acks).map Db.Ack.pair)
        (db.undated shard)).1).Perm
      (endedOf acks (inOrder acknowledgeOne db.placeOf (acks.map Db.Ack.pair) db.filed).1) := by
  have distinct : (none :: allShards.map some).Nodup := by
    refine List.nodup_cons.mpr ⟨by simp, ?_⟩
    exact (List.nodup_finRange _).map (Option.some_injective _)
  have covered : ∀ ack ∈ acks, db.placeOf ack.pair ∈ none :: allShards.map some := by
    intro ack _
    cases db.placeOf ack.pair with
    | none => exact .head _
    | some shard => exact .tail _ (List.mem_map_of_mem (List.mem_finRange shard))
  have groups : ((none :: allShards.map some).flatMap fun target =>
      (ofPlace (fun ack => db.placeOf ack.pair) target acks).zip
        (handleAll (fun ack => acknowledgeOne ack.pair)
          (ofPlace (fun ack => db.placeOf ack.pair) target acks) (db.filed target)).1).Perm
        (acks.zip
          (inOrder (fun ack => acknowledgeOne ack.pair) (fun ack => db.placeOf ack.pair) acks
            db.filed).1) :=
    Grouped.groups_perm distinct covered db.filed
  have whole : inOrder (fun ack => acknowledgeOne ack.pair) (fun ack => db.placeOf ack.pair) acks
      db.filed = inOrder acknowledgeOne db.placeOf (acks.map Db.Ack.pair) db.filed :=
    Grouped.handleAll_map (atPlace acknowledgeOne db.placeOf) Db.Ack.pair acks db.filed
  simp only [whole, Grouped.handleAll_map acknowledgeOne Db.Ack.pair] at groups
  have kept := groups.filterMap fun entry => entry.2.map fun topic => (entry.1, topic)
  rw [List.flatMap_cons, List.filterMap_append] at kept
  have nowhere := endedOf_nowhere (ofPlace (fun ack => db.placeOf ack.pair) none acks)
    ((ofPlace (fun ack => db.placeOf ack.pair) none acks).map Db.Ack.pair)
  rw [endedOf] at nowhere
  rw [Database.filed, Option.elim_none, nowhere, List.nil_append, List.flatMap_map,
    List.filterMap_flatMap] at kept
  exact kept

variable {messages : List (String × String)}

theorem map_any_endedOf {topics : List (Option String)} {ended : List (Db.Ack × String)}
    (length : topics.length = messages.length)
    (collected : ended.Perm (endedOf (Db.acksOf messages) topics)) :
    ((Db.acksOf messages).map fun ack =>
        ended.any fun entry => decide (entry.1.index = ack.index)) =
      topics.map Option.isSome := by
  have size : (Db.acksOf messages).length = topics.length := by
    rw [length, Db.acksOf, List.length_map, List.length_zipIdx]
  have firsts : ((Db.acksOf messages).zip topics).map Prod.fst = Db.acksOf messages :=
    List.map_fst_zip size.le
  have seconds : ((Db.acksOf messages).zip topics).map Prod.snd = topics := List.map_snd_zip size.ge
  have distinct : (((Db.acksOf messages).zip topics).map fun entry => entry.1.index).Nodup := by
    have positions := Db.nodup_acksOf messages
    rw [← firsts, List.map_map] at positions
    exact positions
  have kept := Grouped.map_any_kept Db.Ack.index collected distinct
  rw [← firsts, List.map_map]
  conv_rhs => rw [← seconds, List.map_map]
  exact kept

theorem sum_delivered (topic : String) (ended : List (Db.Ack × String)) :
    (ended.map fun entry => countsFor topic entry.2 { delivered := 1 }).sum =
      (0, 0, (((ended.map Prod.snd).count topic : Nat) : Int)) := by
  induction ended with
  | nil => rfl
  | cons entry _ ih =>
    rw [List.map_cons, List.sum_cons, ih, List.map_cons, List.count_cons, countsFor]
    by_cases same : entry.2 = topic
    · simp [same, TopicStatsDelta.counts, add_comm]
    · simp [same]

theorem count_endedOf {group : List Db.Ack} {topics : List (Option String)}
    (length : topics.length = group.length) (topic : String) :
    ((endedOf group topics).map Prod.snd).count topic = topics.count (some topic) := by
  have seconds : (group.zip topics).map Prod.snd = topics := List.map_snd_zip length.le
  have kept : (endedOf group topics).map Prod.snd = topics.filterMap id := by
    rw [endedOf, List.map_filterMap]
    conv_rhs => rw [← seconds, List.filterMap_map]
    refine List.filterMap_congr fun entry _ => ?_
    rw [Option.map_map]
    exact Option.map_id'
  rw [kept]
  clear kept seconds length
  induction topics with
  | nil => rfl
  | cons out rest ih =>
    cases out with
    | none => simpa using ih
    | some name =>
      have first : (some name :: rest).filterMap id = name :: rest.filterMap id := rfl
      rw [first, List.count_cons, List.count_cons, ih]
      simp

variable {outcome : Except DbError (List Bool)}

theorem ran_deliveredBatch
    (ran : Ran (Answered clock) (Db.deliveredBatch messages).run db outcome after) :
    outcome = .ok ((inOrder acknowledgeOne db.placeOf messages db.filed).1.map Option.isSome) ∧
      after.filed = (inOrder acknowledgeOne db.placeOf messages db.filed).2 ∧
      after.messages .control = db.messages .control ∧
      ∀ topic, deltaCounts after.deltas topic =
          deltaCounts db.deltas topic + (0, 0, (db.moved topic after : Int)) := by
  rcases ran_exceptBind.mp ran with ⟨places, located, placed, rest⟩ | ⟨_, placed, _⟩
  swap
  · cases (ran_places placed).1
  obtain ⟨same, unchanged⟩ := ran_places placed
  cases same
  obtain ⟨now, timed, read, rest⟩ := Db.ran_access_bind.mp rest
  rw [(answered_now read).2, unchanged] at rest
  rcases ran_exceptBind.mp rest with ⟨ended, middle, looped, rest⟩ | ⟨_, looped, _⟩
  swap
  · cases (ran_deliverShards looped).1
  obtain ⟨same, slots, spares⟩ := ran_deliverShards looped
  cases same
  rcases ran_exceptBind.mp rest with ⟨_, _, recorded, rfl, rfl⟩ | ⟨_, recorded, _⟩
  swap
  · cases (ran_recordTallies recorded).1
  obtain ⟨_, only, counts⟩ := ran_recordTallies recorded
  simp only [groupOf_places] at slots counts ⊢
  have pairs : (Db.acksOf messages).map Db.Ack.pair = messages := Db.acksOf_map_pair messages
  have collected := @endedOf_perm db (Db.acksOf messages)
  rw [pairs] at collected
  have rows : after.undated = middle.undated := by
    rw [only]
    rfl
  refine ⟨congrArg Except.ok ?_, ?_, ?_, fun topic => ?_⟩
  · refine map_any_endedOf (Grouped.length_handleAll _ messages _) ?_
    rw [← List.flatMap_def]
    exact collected
  · funext place
    rw [Grouped.inOrder_slot]
    cases place with
    | none =>
      rw [handleAll_acknowledgeOne_rows]
      rfl
    | some shard =>
      rw [← pairs, ← Grouped.map_ofPlace]
      exact (congrFun rows shard).trans (slots shard)
  · rw [only]
    exact spares.2
  · rw [counts, spares.1, List.map_map]
    rw [← List.flatMap_def]
    refine congrArg _ ((sum_delivered topic _).trans ?_)
    refine congrArg (fun count : Nat => ((0, 0, (count : Int)) : Counts)) ?_
    rw [List.map_flatMap, List.count_flatMap, Database.moved]
    refine congrArg List.sum (List.map_congr_left fun shard _ => ?_)
    have distinct : ((db.undated shard).map fun row => row.id).Nodup :=
      ids_undated shard ▸ (db.messages (.shard shard)).primaryNodup
    rw [Function.comp_apply,
      count_endedOf ((Grouped.length_handleAll _ _ _).trans (List.length_map _)),
      count_acknowledged distinct, ← movedTo_acknowledged distinct, ← slots, ← congrFun rows]
    exact movedTo_undated topic _ _

theorem ran_deliveredOneByOne
    (ran :
      Ran (Answered clock)
        (Db.forEach (fun pair : String × String => Db.delivered pair.1 pair.2) messages).run db
        outcome after) :
    outcome = .ok ((inOrder acknowledgeOne db.placeOf messages db.filed).1.map Option.isSome) ∧
      after.filed = (inOrder acknowledgeOne db.placeOf messages db.filed).2 ∧
      after.messages .control = db.messages .control := by
  have spec :=
    Db.ran_forEach_handleAll Database.filed
      (fun pair slots =>
        ((atPlace acknowledgeOne db.placeOf pair slots).1.isSome,
          (atPlace acknowledgeOne db.placeOf pair slots).2))
      (fun _ slots =>
        ∀ shard,
          ((slots (some shard)).map fun row => row.id) = (db.undated shard).map fun row => row.id)
      (fun reached => reached.messages .control = db.messages .control) ?_ (fun _ => rfl) rfl
      ran
  · rwa [Grouped.handleAll_wrap (atPlace acknowledgeOne db.placeOf)] at spec
  · intro pair rest reached outcome later sameIds control ran
    have place : reached.placeOf = db.placeOf := by
      funext other
      exact congrFun (placeIn_congr sameIds) other.1
    rcases ran_exceptBind.mp ran with ⟨results, _, batch, rfl, rfl⟩ | ⟨_, batch, _⟩
    · obtain ⟨same, slots, spared, _⟩ := ran_deliveredBatch batch
      cases same
      rw [place] at slots ⊢
      refine ⟨rfl, slots, fun shard => ?_, spared.trans control⟩
      rw [← sameIds shard]
      simp only [atPlace]
      by_cases here : db.placeOf pair = some shard
      · rw [here, Function.update_self]
        exact ids_acknowledgeOne pair _
      · rw [Function.update_of_ne (Ne.symm here)]
    · cases (ran_deliveredBatch batch).1

end Batch

/-- The same rows in every file, except for the instants they were delivered at. -/
def SameUndated (first second : Database) : Prop :=
  ∀ store, (first.messages store).rows.map MessageRow.undated =
      (second.messages store).rows.map MessageRow.undated

/-- Whatever the state of the database, the pairs and the readings of the clock: when no
statement fails, a batch of acknowledgements returns, and returns at each position what the
call for that pair returns when the pairs are acknowledged one by one; the rows are the same,
and the delivered delta of every topic grows by the number of rows moved to delivered. -/
theorem deliveredBatch_eq_oneByOne (db : Database) (messages : List (String × String)) :
    (∃ results after,
        Ran (Answered fun _ => True) (Db.deliveredBatch messages).run db (.ok results) after ∧
          results.length = messages.length) ∧
      (∃ outcome after,
        Ran (Answered fun _ => True)
          (Db.forEach (fun pair : String × String => Db.delivered pair.1 pair.2) messages).run
          db outcome after) ∧
      ∀ outcome after outcome' after',
        Ran (Answered fun _ => True) (Db.deliveredBatch messages).run db outcome after →
          Ran (Answered fun _ => True)
              (Db.forEach (fun pair : String × String => Db.delivered pair.1 pair.2) messages).run
              db outcome' after' →
            (∃ results, outcome = .ok results ∧ outcome' = .ok results) ∧ SameUndated after after' ∧
              ∀ topic, deltaCounts after.deltas topic =
                  deltaCounts db.deltas topic + (0, 0, (db.moved topic after : Int)) := by
  refine ⟨?_, @exists_ran_answered _ (fun _ => True) 0 trivial _ db, ?_⟩
  · obtain ⟨outcome, after, ran⟩ :=
      @exists_ran_answered _ (fun _ => True) 0 trivial (Db.deliveredBatch messages).run db
    obtain ⟨rfl, _⟩ := ran_deliveredBatch ran
    refine ⟨_, after, ran, ?_⟩
    rw [List.length_map]
    exact Grouped.length_handleAll _ messages _
  · intro outcome after outcome' after' batch singles
    obtain ⟨results, rows, control, counts⟩ := ran_deliveredBatch batch
    obtain ⟨results', rows', control'⟩ := ran_deliveredOneByOne singles
    refine ⟨⟨_, results, results'⟩, fun store => ?_, counts⟩
    cases store with
    | control => rw [control, control']
    | shard shard => exact congrFun (rows.trans rows'.symm) (some shard)

end CanglingBroker
