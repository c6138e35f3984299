import CanglingBroker.Database.Alone
import CanglingBroker.Database.Routing

/-!
# What a claim takes

`claim_batch_for_topic` without concurrency: it takes the oldest of the topic's ready
messages, as many as it may, and touches nothing else.  `claim_batch_for_filter` sweeps
over the shards and over the ready topics of each; it takes one such batch of a matching
topic, and it takes one whenever there is any.
-/

namespace CanglingBroker

open Foundation
open Program (Ran ran_exceptBind)

def Database.stored (db : Database) : List MessageRow :=
  allShards.flatMap fun shard => (db.messages (.shard shard)).rows

def Database.readyRows (db : Database) (topic : String) (now : Nat) : List MessageRow :=
  db.stored.filter fun row => row.ready now && row.topic = topic

/-- A row as a claim leaves it. -/
def MessageRow.taken (lease : String) (visibleAgain : Nat) (row : MessageRow) :
    MessageRow :=
  { row with
    status := .processing
    attempts := row.attempts + 1
    lease := some lease
    nextAttemptAt := visibleAgain }

/-- A batch is made of the oldest ready messages of a topic, sorted and each once; their
rows carry its lease for the given time, and every other row is as it was. -/
structure TakesOldest (db : Database) (topic : String) (now duration limit : Nat)
    (lease : String) (messages : List ClaimedMessage) (after : Database) : Prop where
  count :
    messages.length = min (max 1 (min limit 128)) (db.readyRows topic now).length
  sorted : messages.Pairwise ClaimedMessage.before
  distinct : (messages.map ClaimedMessage.id).Nodup
  ready :
    ∀ message ∈ messages, ∃ row ∈ db.readyRows topic now,
      message = row.claimed lease (row.attempts + 1)
  oldest :
    ∀ row ∈ db.readyRows topic now, row.id ∉ messages.map ClaimedMessage.id →
      ∀ message ∈ messages, message.createdAt ≤ row.createdAt
  rows :
    ∀ store, (after.messages store).rows = (db.messages store).rows.map fun row =>
        if store = .shard (topicShard topic) ∧ row.id ∈ messages.map ClaimedMessage.id then
          row.taken lease (now + duration)
        else
          row

/-! ## Rows of one shard -/

theorem flatMap_eq_of_single {Item Result : Type} {chosen : Item} {listed : Item → List Result} :
    ∀ {items : List Item}, items.Nodup → chosen ∈ items →
      (∀ item ∈ items, item ≠ chosen → listed item = []) → items.flatMap listed = listed chosen
  | item :: rest, distinct, member, others => by
    obtain ⟨notIn, nodup⟩ := List.nodup_cons.mp distinct
    rw [List.flatMap_cons]
    by_cases same : item = chosen
    · subst same
      have empty : rest.flatMap listed = [] := by
        rw [List.flatMap_eq_nil_iff]
        intro other later
        refine others other (.tail _ later) ?_
        rintro rfl
        exact notIn later
      rw [empty, List.append_nil]
    · have later : chosen ∈ rest :=
        (List.mem_cons.mp member).resolve_left (Ne.symm same)
      rw [others item List.mem_cons_self same, List.nil_append,
        flatMap_eq_of_single nodup later fun other listed =>
          others other (.tail _ listed)]

variable {db : Database}

theorem Database.Routed.readyRows_eq (routed : db.Routed) (topic : String) (now : Nat) :
    db.readyRows topic now = (db.messages (.shard (topicShard topic))).rows.filter fun row =>
        row.ready now && row.topic = topic := by
  rw [Database.readyRows, Database.stored, List.filter_flatMap]
  refine flatMap_eq_of_single (List.nodup_finRange _) (List.mem_finRange _)
    fun shard _ different => ?_
  rw [List.filter_eq_nil_iff]
  intro row member
  rw [Bool.and_eq_true, decide_eq_true_eq, not_and]
  rintro _ rfl
  exact different (routed shard row member).1.symm

section Picked

variable {table : MessageTable} {now limit visibleAgain : Nat} {topic lease : String}
  {picked : List String}

section

variable
  (picks : Picks (table.rows.filter fun row => row.ready now && row.topic = topic) limit picked)
  {row : MessageRow}

include picks

theorem claimBatch_guard (member : row ∈ table.rows) :
    (Update.claimBatch lease visibleAgain now topic limit).guard picked row = true ↔
      row.id ∈ picked := by
  rw [Update.guard, Bool.and_eq_true, decide_eq_true_eq, decide_eq_true_eq]
  refine ⟨And.left, fun isPicked => ⟨isPicked, ?_⟩⟩
  obtain ⟨candidate, listed, same⟩ := picks.2.2.1 row.id isPicked
  obtain ⟨found, ready⟩ := List.mem_filter.mp listed
  have equal : candidate = row := table.eq_of_primary_eq found member same
  subst equal
  rw [MessageRow.ready, Bool.and_eq_true, Bool.and_eq_true, decide_eq_true_eq] at ready
  exact ready.1.1

theorem mem_candidates_of_picked (member : row ∈ table.rows) (isPicked : row.id ∈ picked) :
    row ∈ table.rows.filter fun row => row.ready now && row.topic = topic := by
  obtain ⟨candidate, listed, same⟩ := picks.2.2.1 row.id isPicked
  have equal : candidate = row := table.eq_of_primary_eq (List.mem_filter.mp listed).1 member same
  exact equal ▸ listed

theorem topic_of_affected (affected :
    row ∈ ((Update.claimBatch lease visibleAgain now topic limit).execute picked table).1) :
    row.topic = topic := by
  obtain ⟨before, isBefore, guarded, rfl⟩ := Update.mem_affected.mp affected
  have isPicked := (claimBatch_guard picks isBefore).mp guarded
  have ready := (List.mem_filter.mp (mem_candidates_of_picked picks isBefore isPicked)).2
  rw [Bool.and_eq_true, decide_eq_true_eq] at ready
  exact ready.2

theorem claimBatch_affected :
    (((Update.claimBatch lease visibleAgain now topic limit).execute picked table).1.map
        fun row => row.id).Perm picked := by
  have ids : ((Update.claimBatch lease visibleAgain now topic limit).execute picked table).1.map
      (fun row => row.id) =
        (table.rows.filter
          ((Update.claimBatch lease visibleAgain now topic limit).guard picked)).map
            fun row => row.id := by
    rw [Update.execute, List.map_map]
    rfl
  rw [ids]
  refine (List.perm_ext_iff_of_nodup ?_ picks.1).mpr fun id => ?_
  · exact table.primaryNodup.sublist (List.filter_sublist.map _)
  · constructor
    · intro member
      obtain ⟨row, kept, rfl⟩ := List.mem_map.mp member
      obtain ⟨found, guarded⟩ := List.mem_filter.mp kept
      exact (claimBatch_guard picks found).mp guarded
    · intro isPicked
      obtain ⟨row, listed, rfl⟩ := picks.2.2.1 id isPicked
      have found := (List.mem_filter.mp listed).1
      exact List.mem_map.mpr
        ⟨row, List.mem_filter.mpr ⟨found, (claimBatch_guard picks found).mpr isPicked⟩, rfl⟩

end

end Picked

/-! ## A batch of one topic -/

/-- What `claim_batch_for_topic` returns of the rows it has claimed. -/
def Db.returned (lease : String) (rows : List MessageRow) : List ClaimedMessage :=
  (rows.map fun row => row.claimed lease row.attempts).insertionSort ClaimedMessage.before

namespace ClaimedMessage

theorem before_total (left right : ClaimedMessage) : left.before right ∨ right.before left := by
  unfold before
  rcases Nat.lt_trichotomy left.createdAt right.createdAt with less | same | more
  · exact .inl (.inl less)
  · rcases le_total left.id right.id with below | above
    · exact .inl (.inr ⟨same, below⟩)
    · exact .inr (.inr ⟨same.symm, above⟩)
  · exact .inr (.inl more)

theorem before_trans {left middle right : ClaimedMessage} (first : left.before middle)
    (second : middle.before right) : left.before right := by
  rcases first with less | ⟨same, below⟩
  · rcases second with later | ⟨equal, _⟩
    · exact .inl (less.trans later)
    · exact .inl (equal ▸ less)
  · rcases second with later | ⟨equal, above⟩
    · exact .inl (same ▸ later)
    · exact .inr ⟨same.trans equal, below.trans above⟩

theorem createdAt_le_of_before {left right : ClaimedMessage} (order : left.before right) :
    left.createdAt ≤ right.createdAt := by
  rcases order with less | ⟨same, _⟩
  · exact Nat.le_of_lt less
  · exact Nat.le_of_eq same

instance : Std.Total ClaimedMessage.before :=
  ⟨before_total⟩

instance : IsTrans ClaimedMessage ClaimedMessage.before :=
  ⟨fun _ _ _ => before_trans⟩

end ClaimedMessage

theorem returned_sorted (lease : String) (rows : List MessageRow) :
    (Db.returned lease rows).Pairwise fun earlier later =>
      earlier.createdAt ≤ later.createdAt :=
  (List.pairwise_insertionSort ClaimedMessage.before _).imp ClaimedMessage.createdAt_le_of_before

theorem mem_returned {lease : String} {rows : List MessageRow} {message : ClaimedMessage}
    (member : message ∈ Db.returned lease rows) :
    ∃ row ∈ rows, row.claimed lease row.attempts = message :=
  List.mem_map.mp ((List.mem_insertionSort _).mp member)

theorem returned_perm (lease : String) (rows : List MessageRow) :
    (Db.returned lease rows).Perm (rows.map fun row => row.claimed lease row.attempts) :=
  List.perm_insertionSort _ _

variable {outcome : Except DbError (List ClaimedMessage)} {topic : String} {visibility now : Nat}

theorem ran_claimBatchForTopic {validJson : String → Bool} {clock : Nat → Prop} {limit : Nat}
    {after : Database} (ran :
      Ran (Answered clock) (Db.claimBatchForTopic validJson topic visibility limit).run db
        outcome after) :
    ∃ now lease, clock now ∧ lease ∉ db.issued ∧ after.turn = db.turn ∧
      ((∃ problem, visibleAgain now visibility = .error problem ∧
          outcome = .error problem ∧ after.messages = db.messages) ∨
        ∃ instant picked table, visibleAgain now visibility = .ok instant ∧
            table = db.messages (.shard (topicShard topic)) ∧
            Picks (table.rows.filter fun row => row.ready now && row.topic = topic)
              (max 1 (min limit 128)) picked ∧
            after.messages = Function.update db.messages (.shard (topicShard topic))
                ((Update.claimBatch lease instant now topic
                  (max 1 (min limit 128))).execute picked table).2 ∧
            outcome =
              if (((Update.claimBatch lease instant now topic
                  (max 1 (min limit 128))).execute picked table).1.all
                    fun row => validJson row.attributes) = true then
                .ok
                  (Db.returned lease
                    ((Update.claimBatch lease instant now topic
                      (max 1 (min limit 128))).execute picked table).1)
              else
                .error .attributesJson) := by
  unfold Db.claimBatchForTopic at ran
  obtain ⟨now, _, read, drawing⟩ := Db.ran_access_bind.mp ran
  obtain ⟨ticks, rfl⟩ := answered_now read
  obtain ⟨lease, _, drew, claiming⟩ := Db.ran_access_bind.mp drawing
  obtain ⟨unissued, rfl⟩ := answered_newUuid drew
  cases fits : visibleAgain now visibility with
  | error problem =>
    rw [fits] at claiming
    obtain ⟨rfl, rfl⟩ := claiming
    exact ⟨now, lease, ticks, unissued, rfl, .inl ⟨problem, fits, rfl, rfl⟩⟩
  | ok instant =>
    rw [fits] at claiming
    rcases ran_exceptBind.mp claiming with ⟨rows, middle, claimed, sorting⟩ | ⟨problem, claimed, _⟩
    · obtain ⟨picked, picks, same, rfl⟩ := answered_update (Db.ran_sql.mp claimed)
      cases same
      refine ⟨now, lease, ticks, unissued, ?_, .inr ⟨instant, picked, _, fits, rfl, picks, ?_⟩⟩
      · split at sorting
        · obtain ⟨_, rfl⟩ := sorting
          rfl
        · obtain ⟨_, rfl⟩ := sorting
          rfl
      · split at sorting
        · next valid =>
          obtain ⟨rfl, rfl⟩ := sorting
          exact ⟨rfl, (if_pos valid).symm⟩
        · next invalid =>
          obtain ⟨rfl, rfl⟩ := sorting
          exact ⟨rfl, (if_neg invalid).symm⟩
    · obtain ⟨picked, picks, same, _⟩ := answered_update (Db.ran_sql.mp claimed)
      cases same

section Takes

variable {db after : Database} {topic lease : String} {now duration limit : Nat}
  {picked : List String}

theorem returned_ids_perm {table : MessageTable} (lease : String) (visibleAgain : Nat)
    (picks : Picks (table.rows.filter fun row => row.ready now && row.topic = topic) limit picked) :
    ((Db.returned lease
        ((Update.claimBatch lease visibleAgain now topic limit).execute picked
          table).1).map ClaimedMessage.id).Perm picked := by
  have handed := (returned_perm lease
    ((Update.claimBatch lease visibleAgain now topic limit).execute picked table).1).map
      ClaimedMessage.id
  rw [List.map_map] at handed
  exact handed.trans (claimBatch_affected picks)

theorem takesOldest_of_picks {table : MessageTable} (routed : db.Routed)
    (inShard : table = db.messages (.shard (topicShard topic)))
    (picks :
      Picks (table.rows.filter fun row => row.ready now && row.topic = topic)
        (max 1 (min limit 128)) picked)
    (messages :
      after.messages = Function.update db.messages (.shard (topicShard topic))
          ((Update.claimBatch lease (now + duration) now topic
            (max 1 (min limit 128))).execute picked table).2) :
    TakesOldest db topic now duration limit lease
      (Db.returned lease
        ((Update.claimBatch lease (now + duration) now topic
          (max 1 (min limit 128))).execute picked table).1)
      after := by
  have ids := returned_ids_perm lease (now + duration) picks
  have candidates := routed.readyRows_eq topic now
  rw [← inShard] at candidates
  -- what is handed out comes from a picked row as it was before
  have origin : ∀ message ∈ Db.returned lease
      ((Update.claimBatch lease (now + duration) now topic
        (max 1 (min limit 128))).execute picked table).1,
        ∃ row ∈ db.readyRows topic now,
          row.id ∈ picked ∧ message = row.claimed lease (row.attempts + 1) := by
    intro message member
    obtain ⟨affected, listed, rfl⟩ := mem_returned member
    obtain ⟨row, found, guarded, rfl⟩ := Update.mem_affected.mp listed
    have isPicked := (claimBatch_guard picks found).mp guarded
    refine ⟨row, ?_, isPicked, rfl⟩
    rw [candidates]
    exact mem_candidates_of_picked picks found isPicked
  constructor
  · have lengths := ids.length_eq
    rw [List.length_map] at lengths
    rw [lengths, picks.2.1, candidates]
  · exact List.pairwise_insertionSort ClaimedMessage.before _
  · exact ids.nodup_iff.mpr picks.1
  · intro message member
    obtain ⟨row, ready, _, same⟩ := origin message member
    exact ⟨row, ready, same⟩
  · intro row ready notTaken message member
    obtain ⟨kept, keptReady, isPicked, rfl⟩ := origin message member
    rw [candidates] at ready keptReady
    exact picks.2.2.2 kept keptReady row ready isPicked fun taken =>
      notTaken (ids.mem_iff.mpr taken)
  · intro store
    rw [messages]
    by_cases here : store = .shard (topicShard topic)
    · subst here
      rw [Function.update_self, Update.execute_rows, ← inShard]
      refine List.map_congr_left fun row member => ?_
      have guarded : (Update.claimBatch lease (now + duration) now topic
          (max 1 (min limit 128))).guard picked row = true ↔ row.id ∈ picked :=
        claimBatch_guard picks member
      unfold Update.rewrite
      by_cases isPicked : row.id ∈ picked
      · rw [if_pos (guarded.mpr isPicked), if_pos ⟨rfl, ids.mem_iff.mpr isPicked⟩]
        rfl
      · rw [if_neg (fun holds => isPicked (guarded.mp holds)),
          if_neg fun both => isPicked (ids.mem_iff.mp both.2)]
    · rw [Function.update_of_ne here]
      have same : (db.messages store).rows.map id = (db.messages store).rows := List.map_id _
      rw [← same, List.map_map]
      refine List.map_congr_left fun row _ => ?_
      rw [Function.comp_apply, if_neg fun both => here both.1]

end Takes

theorem Database.mem_readyRows {row : MessageRow} :
    row ∈ db.readyRows topic now ↔ row ∈ db.stored ∧ row.ready now = true ∧ row.topic = topic := by
  rw [Database.readyRows, List.mem_filter, Bool.and_eq_true, decide_eq_true_eq]

theorem Database.mem_stored {row : MessageRow} :
    row ∈ db.stored ↔ ∃ shard, row ∈ (db.messages (.shard shard)).rows := by
  rw [Database.stored, List.mem_flatMap]
  constructor
  · rintro ⟨shard, _, member⟩
    exact ⟨shard, member⟩
  · rintro ⟨shard, member⟩
    exact ⟨shard, List.mem_finRange shard, member⟩

theorem Database.readyRows_of_messages_eq {other : Database} (same : other.messages = db.messages)
    (topic : String) (now : Nat) : other.readyRows topic now = db.readyRows topic now := by
  rw [Database.readyRows, Database.readyRows, Database.stored, Database.stored, same]

namespace TakesOldest

variable {db other after : Database} {topic lease : String} {now duration limit : Nat}
  {messages : List ClaimedMessage}

theorem of_messages_eq (takes : TakesOldest other topic now duration limit lease messages after)
    (same : other.messages = db.messages) :
    TakesOldest db topic now duration limit lease messages after := by
  obtain ⟨count, sorted, distinct, origin, oldest, rows⟩ := takes
  rw [Database.readyRows_of_messages_eq same] at count origin oldest
  rw [same] at rows
  exact ⟨count, sorted, distinct, origin, oldest, rows⟩

theorem eq_nil_iff (takes : TakesOldest db topic now duration limit lease messages after) :
    messages = [] ↔ db.readyRows topic now = [] := by
  rw [← List.length_eq_zero_iff, takes.count, ← List.length_eq_zero_iff]
  omega

theorem topic_eq (takes : TakesOldest db topic now duration limit lease messages after)
    {message : ClaimedMessage} (member : message ∈ messages) : message.topic = topic := by
  obtain ⟨row, ready, rfl⟩ := takes.ready message member
  exact (Database.mem_readyRows.mp ready).2.2

theorem unchanged (takes : TakesOldest db topic now duration limit lease [] after) :
    after.messages = db.messages := by
  funext store
  apply Table.eq_of_rows_eq
  rw [takes.rows store]
  simp

end TakesOldest

def Database.Readable (validJson : String → Bool) (db : Database) : Prop :=
  ∀ shard, ∀ row ∈ (db.messages (.shard shard)).rows, validJson row.attributes = true

theorem eq_of_visibleAgain {instant : Nat} (fits : visibleAgain now visibility = .ok instant) :
    instant = now + visibility := by
  unfold visibleAgain fromStd at fits
  by_cases short : visibility ≤ (2 ^ 63 - 1) * 10 ^ 6
  · rw [if_pos short] at fits
    dsimp only at fits
    split at fits <;> cases fits
    rfl
  · rw [if_neg short] at fits
    cases fits

/-- A claim alone: it fails only where the end of its lease cannot be expressed. -/
theorem claimBatchForTopic_ran {validJson : String → Bool} {after : Database} {limit : Nat}
    (routed : db.Routed) (readable : db.Readable validJson) (ran :
      Ran (Answered (· = now)) (Db.claimBatchForTopic validJson topic visibility limit).run
        db outcome after) :
    (∃ problem, visibleAgain now visibility = .error problem ∧
        outcome = .error problem ∧ after.messages = db.messages) ∨
      ((∃ instant, visibleAgain now visibility = .ok instant) ∧
        ∃ lease messages, outcome = .ok messages ∧ lease ∉ db.issued ∧
          TakesOldest db topic now visibility limit lease messages after) := by
  obtain ⟨now, lease, rfl, unissued, _, failed | claimed⟩ := ran_claimBatchForTopic ran
  · exact .inl failed
  · obtain ⟨instant, picked, table, fits, inShard, picks, messages, same⟩ := claimed
    have valid : (((Update.claimBatch lease instant now topic
        (max 1 (min limit 128))).execute picked table).1.all
          fun row => validJson row.attributes) = true := by
      rw [List.all_eq_true]
      intro affected listed
      obtain ⟨row, found, _, rfl⟩ := Update.mem_affected.mp listed
      rw [inShard] at found
      exact readable _ row found
    rw [if_pos valid] at same
    rw [eq_of_visibleAgain fits] at messages same
    refine .inr ⟨⟨instant, fits⟩, lease, _, same, unissued,
      takesOldest_of_picks routed inShard picks messages⟩

/-- **A batch of one topic.**  Whatever is stored, a claim of a topic returns, and it
takes exactly the oldest ready messages of the topic, up to its limit.  It fails only
where the chrono library cannot express the visibility, or panics because it cannot
express the end of the lease; then it takes nothing. -/
theorem claimBatchForTopic_takes_oldest (validJson : String → Bool) (db : Database)
    (topic : String) (visibility limit now : Nat) (routed : db.Routed)
    (readable : db.Readable validJson) :
    (∃ outcome after,
        Ran (Answered (· = now))
          (Db.claimBatchForTopic validJson topic visibility limit).run db outcome after) ∧
      ∀ outcome after, Ran (Answered (· = now))
          (Db.claimBatchForTopic validJson topic visibility limit).run db outcome after →
          match visibleAgain now visibility with
          | .error problem => outcome = .error problem ∧ after.messages = db.messages
          | .ok _ =>
            ∃ lease messages, outcome = .ok messages ∧
              TakesOldest db topic now visibility limit lease messages after := by
  constructor
  · exact exists_ran_answered (· = now) rfl _ db
  · intro outcome after ran
    rcases claimBatchForTopic_ran routed readable ran with
      ⟨problem, unfit, failed, messages⟩ | ⟨⟨instant, fits⟩, lease, messages, same, _, takes⟩
    · rw [unfit]
      exact ⟨failed, messages⟩
    · rw [fits]
      exact ⟨lease, messages, same, takes⟩

/-- Two messages of one topic and one of another topic of their shard; the second of the
topic is older. -/
def backlog : Database :=
  Database.empty.setMessages (.shard 13)
    { rows :=
        [⟨⟨"s13-a", none, "jobs", [104], "\x7b\x7d", 3⟩, .pending, 0, 3, none, none, none⟩,
          ⟨⟨"s13-b", none, "jobs", [105], "\x7b\x7d", 2⟩, .pending, 1, 9, none, none, none⟩,
          ⟨⟨"s13-c", none, "z", [106], "\x7b\x7d", 1⟩, .pending, 0, 1, none, none, none⟩]
      primaryNodup := by decide
      alternateNodup := by decide }

theorem backlog_routed : backlog.Routed := by
  unfold Database.Routed
  decide +kernel

theorem backlog_readable : backlog.Readable (fun text => text = "\x7b\x7d") := by
  unfold Database.Readable
  decide +kernel

theorem claimBatchForTopic_takes_oldest_backlog : ∃ lease messages after,
    Ran (Answered (· = 9))
        (Db.claimBatchForTopic (fun text => text = "\x7b\x7d") "jobs" 30 1).run backlog
        (.ok messages) after ∧
      messages.length = 1 ∧
      TakesOldest backlog "jobs" 9 30 1 lease messages after := by
  obtain ⟨⟨outcome, after, ran⟩, every⟩ :=
    claimBatchForTopic_takes_oldest (fun text => text = "\x7b\x7d") backlog "jobs" 30 1 9
      backlog_routed backlog_readable
  obtain ⟨lease, messages, rfl, takes⟩ := every outcome after ran
  refine ⟨lease, messages, after, ran, ?_, takes⟩
  have ready : (backlog.readyRows "jobs" 9).length = 2 := by
    decide +kernel
  rw [takes.count, ready]
  rfl

end CanglingBroker
