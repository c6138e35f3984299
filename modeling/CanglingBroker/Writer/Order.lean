import CanglingBroker.Database.ClaimBatch
import CanglingBroker.Database.Lease
import CanglingBroker.Writer.Effects

/-!
# The order of one topic

This module follows one topic along a run of the writer: what the channel has taken, what
the batches have stored with which `created_at`, and what `claim_batch_for_topic` hands out
for the first time.  `TopicLog` is kept beside the run and read by no task.
-/

namespace CanglingBroker

open Foundation
open Writer (admissions_of_receipts admissions_of_other admissions_of_admitted unstored_step)

/-- The messages of one topic in the order of their admission. -/
def Writer.admitted (writer : Writer) (topic : String) : List Receipt :=
  writer.admissions.filter fun receipt => receipt.topic = topic

def freshItems (items : List (EnqueueInput × Nat)) (results : List (String × Bool)) :
    List (EnqueueInput × Nat) :=
  ((items.zip results).filter fun entry => !entry.2.2).map Prod.fst

/-- What is followed of one topic: the instants the batches of its shard have read, its
stored messages with their `created_at`, and the messages among them that were handed
out for the first time, in the order in which the claims returned them. -/
structure TopicLog where
  readings : List Nat := []
  stored : List (EnqueueInput × Nat) := []
  claimed : List ClaimedMessage := []
  deriving DecidableEq, Repr

namespace TopicLog

def readingsOf (shard : ShardIndex) : WriterEvent → List Nat
  | .persist other times _ => if other = shard then times else []
  | _ => []

/-- The messages that a batch of the shard stores. -/
def storedBy (writer : Writer) (shard : ShardIndex) :
    WriterEvent → List (EnqueueInput × Nat)
  | .persist other times choice =>
    if other = shard then
      match (writer.shards shard).phase with
      | .persisting enqueues _ _ =>
        match
          perform choice writer.db (.sql (.enqueue (.shard shard) (enqueues.zip times))) with
        | some (.ok results, _) => freshItems (enqueues.zip times) results
        | _ => []
      | _ => []
    else
      []
  | _ => []

/-- The messages that a claim for the topic hands out. -/
def claimedBy (writer : Writer) (topic : String) : WriterEvent → List ClaimedMessage
  | .other (.sql (.update store (.claimBatch lease visibleAgain now name limit))) choice =>
    if store = .shard (topicShard topic) ∧ name = topic then
      match
        perform choice writer.db
          (.sql (.update store (.claimBatch lease visibleAgain now name limit))) with
      | some (.ok rows, _) => Db.returned lease rows
      | _ => []
    else
      []
  | _ => []

/-- The log after an event. -/
def record (topic : String) (writer : Writer) (event : WriterEvent) (log : TopicLog) :
    TopicLog where
  readings := log.readings ++ readingsOf (topicShard topic) event
  stored :=
    log.stored ++ (storedBy writer (topicShard topic) event).filter fun item => item.1.topic = topic
  claimed :=
    log.claimed ++ (claimedBy writer topic event).filter fun message =>
        message.attempts = 1 && log.stored.any fun item => item.1.id = message.id

end TopicLog

def stepLogged (limits : Limits) (topic : String) (state : Writer × TopicLog)
    (event : WriterEvent) : Option (Writer × TopicLog) :=
  (state.1.step limits event).map fun next => (next, state.2.record topic state.1 event)

def replayLogged (limits : Limits) (topic : String) (initial : Writer)
    (events : List WriterEvent) : Option (Writer × TopicLog) :=
  run (stepLogged limits topic) (initial, {}) events

/-! ## The order of the admissions -/

variable {before after : Writer} {input : EnqueueInput} {event : WriterEvent}

/-- The stored messages, and behind them those still to be stored, are in the order of the
admissions. -/
def Lined (shard : ShardIndex) (stored : List (EnqueueInput × Nat)) (writer : Writer) :
    Prop :=
  ∃ done, (stored.map fun item => item.1.receipt).Sublist done ∧
    (done ++ (writer.shards shard).unstored.map EnqueueInput.receipt).Sublist writer.admissions

variable {shard : ShardIndex} {stored : List (EnqueueInput × Nat)}

theorem lined_step (lined : Lined shard stored before) (effect : WriterEffect before after event) :
    Lined shard stored after := by
  obtain ⟨done, behind, ordered⟩ := lined
  rcases unstored_step effect shard with
    ⟨shorter, longer⟩ | ⟨_, input, _, _, line, admissions⟩
  · refine ⟨done, behind, ?_⟩
    exact (((shorter.map _).append_left done).trans ordered).trans longer
  · refine ⟨done, behind, ?_⟩
    rw [line, admissions, List.map_append, ← List.append_assoc]
    exact ordered.append_right _

variable {enqueues : List EnqueueInput}

theorem lined_batchStored {acks : List DeliveredCommand} {stop : Option Nat}
    {fresh : List (EnqueueInput × Nat)} (lined : Lined shard stored before)
    (phase : (before.shards shard).phase = .persisting enqueues acks stop)
    (shards :
      after.shards = Function.update before.shards shard
          ((before.shards shard).turnToAcks acks stop))
    (receipts : after.receipts = before.receipts) (taken : (fresh.map Prod.fst).Sublist enqueues) :
    Lined shard (stored ++ fresh) after := by
  obtain ⟨done, behind, ordered⟩ := lined
  refine ⟨done ++ enqueues.map EnqueueInput.receipt, ?_, ?_⟩
  · rw [List.map_append]
    refine behind.append ?_
    have mapped := taken.map EnqueueInput.receipt
    rw [List.map_map] at mapped
    exact mapped
  · rw [admissions_of_receipts receipts, shards, Function.update_self]
    have line : (before.shards shard).unstored = enqueues ++ (before.shards shard).queued := by
      rw [WriterShard.unstored, phase]
      rfl
    rw [line, List.map_append, ← List.append_assoc] at ordered
    exact (((WriterShard.unstored_turnToAcks_sublist _ acks stop).map _).append_left _).trans
      ordered

/-! ## Drawn identifiers -/

def Issued (issued : List String) (id : String) : Prop :=
  ∃ topic uuid, id = newMessageId topic uuid ∧ uuid ∈ issued

theorem Issued.mono {issued later : List String} {id : String} (made : Issued issued id)
    (grown : issued ⊆ later) : Issued later id := by
  obtain ⟨topic, uuid, same, drawn⟩ := made
  exact ⟨topic, uuid, same, grown drawn⟩

variable {topic : String} {uuid : String}

theorem newMessageId_uuid {other name : String}
    (same : newMessageId topic uuid = newMessageId other name) : uuid = name := by
  have lists := congrArg String.toList same
  simp only [newMessageId, prefixedMessageId, twoDigits, String.toList_append,
    String.toList_ofList] at lists
  simp at lists
  exact String.toList_inj.mp lists.2.2

theorem Issued.ne {issued : List String} {id : String} (made : Issued issued id)
    (unissued : uuid ∉ issued) : id ≠ newMessageId topic uuid := by
  obtain ⟨other, name, rfl, drawn⟩ := made
  intro same
  exact unissued (newMessageId_uuid same ▸ drawn)

/-- Waiting and admitted messages all have identifiers of their own. -/
structure Drawn (writer : Writer) : Prop where
  waitingIssued :
    ∀ call input, writer.calls call = some (.publish input) → Issued writer.db.issued input.id
  admittedIssued : ∀ receipt ∈ writer.admissions, Issued writer.db.issued receipt.id
  waitingOnce :
    ∀ call input other later, writer.calls call = some (.publish input) →
      writer.calls other = some (.publish later) → input.id = later.id → call = other
  waitingNew :
    ∀ call input, writer.calls call = some (.publish input) →
      ∀ receipt ∈ writer.admissions, receipt.id ≠ input.id
  admittedOnce : (writer.admissions.map Receipt.id).Nodup

variable {writer : Writer}

theorem issued_draw {drawn : Writer} (done : writer.draw uuid = some drawn) :
    uuid ∉ writer.db.issued ∧ drawn.db.issued = uuid :: writer.db.issued := by
  unfold Writer.draw at done
  split at done
  · cases done
  · next reply db performed =>
    cases done
    simp only [perform, Access.execute] at performed
    split at performed
    · cases performed
    · next unissued =>
      cases performed
      exact ⟨unissued, rfl⟩

theorem db_offer (offered : writer.offer input = some after) : after.db = writer.db := by
  unfold Writer.offer at offered
  dsimp only at offered
  repeat' split at offered
  all_goals cases offered
  all_goals rfl

variable {limits : Limits}

theorem db_send {command : WriteCommand} (sent : writer.send limits shard command = some after) :
    after.db = writer.db := by
  simp only [Writer.send] at sent
  split at sent <;> cases sent
  rfl

theorem db_accept {call : Nat} (accepted : writer.accept limits call = some after) :
    after.db = writer.db := by
  unfold Writer.accept at accepted
  repeat' split at accepted
  all_goals cases accepted
  all_goals rename_i done
  all_goals exact (db_send done :)

section Steps

variable {limits : Limits} {before after : Writer}

theorem issued_publish {key : Option String} {topic : String} {payload : List UInt8}
    {attributes uuid : String}
    (stepped : before.step limits (.publish key topic payload attributes uuid) = some after) :
    uuid ∉ before.db.issued ∧ after.db.issued = uuid :: before.db.issued := by
  simp only [Writer.step] at stepped
  split at stepped
  · split at stepped
    · cases stepped
    · next drawn done =>
      rw [db_offer stepped]
      exact issued_draw done
  · cases stepped

theorem issued_store {key : Option String} {topic : String} {payload : List UInt8}
    {attributes uuid : String} {now : Nat} {fails : Bool}
    (stepped :
      before.step limits (.store key topic payload attributes uuid now fails) = some after) :
    uuid ∉ before.db.issued := by
  simp only [Writer.step] at stepped
  split at stepped
  · cases stepped
  · next drawn done => exact (issued_draw done).1

theorem issued_perform {choice : Choice} {db next : Database} {request : Action}
    {answer : Reply request} (performed : perform choice db request = some (answer, next)) :
    db.issued ⊆ next.issued :=
  fun _ known => (perform_effect performed).issued_mono known

theorem issued_step {event : WriterEvent} (stepped : before.step limits event = some after) :
    before.db.issued ⊆ after.db.issued := by
  cases event with
  | publish =>
    rw [(issued_publish stepped).2]
    exact List.subset_cons_self _ _
  | accept => exact db_accept stepped ▸ List.Subset.refl _
  | store =>
    simp only [Writer.step, Writer.store] at stepped
    split at stepped
    · cases stepped
    · next drawn done =>
      have grown : before.db.issued ⊆ drawn.db.issued :=
        (issued_draw done).2 ▸ List.subset_cons_self _ _
      repeat' split at stepped
      all_goals cases stepped
      all_goals exact List.Subset.trans grown (issued_perform ‹_› :)
  | _ =>
    simp only [Writer.step, Writer.refuse, Writer.forget, Writer.cancel, Writer.conclude,
      Writer.persist, Writer.commit, Writer.other] at stepped
    repeat' split at stepped
    all_goals cases stepped
    all_goals first | exact List.Subset.refl _ | exact (issued_perform ‹_› :)

end Steps

section Drawn

variable (drawn : Drawn before)

include drawn

/-- Fewer publishes wait, and nothing is admitted. -/
theorem Drawn.fewer (grown : before.db.issued ⊆ after.db.issued)
    (waits : ∀ call input, after.calls call = some (.publish input) →
      before.calls call = some (.publish input))
    (same : after.admissions = before.admissions) : Drawn after := by
  constructor
  · grind [Drawn, Issued.mono]
  · grind [Drawn, Issued.mono]
  · grind [Drawn]
  · grind [Drawn]
  · exact same ▸ drawn.admittedOnce

/-- A publish begins to wait under an identifier that was just drawn. -/
theorem Drawn.offers {uuid : String} {call : Nat} (unissued : uuid ∉ before.db.issued)
    (issued : after.db.issued = uuid :: before.db.issued)
    (named : input.id = newMessageId topic uuid)
    (calls : after.calls = Function.update before.calls call (some (.publish input)))
    (same : after.admissions = before.admissions) : Drawn after := by
  have grown : before.db.issued ⊆ after.db.issued := issued ▸ List.subset_cons_self _ _
  have made : Issued after.db.issued input.id := ⟨topic, uuid, named, issued ▸ .head _⟩
  constructor <;> simp only [calls, same, Function.update_apply]
  · grind [Drawn, Issued.mono]
  · grind [Drawn, Issued.mono]
  · grind [Drawn, Issued.ne]
  · grind [Drawn, Issued.ne]
  · exact drawn.admittedOnce

/-- A publish that waits is admitted. -/
theorem Drawn.admits {call : Nat} (grown : before.db.issued ⊆ after.db.issued)
    (waiting : before.calls call = some (.publish input))
    (calls : after.calls = Function.update before.calls call none)
    (admissions : after.admissions = before.admissions ++ [input.receipt]) : Drawn after := by
  have named : input.receipt.id = input.id := rfl
  constructor <;> simp only [calls, admissions, Function.update_apply, List.mem_append,
    List.mem_singleton, List.map_append, List.nodup_append]
  · grind [Drawn, Issued.mono]
  · grind [Drawn, Issued.mono]
  · grind [Drawn]
  · grind [Drawn]
  · grind [Drawn]

end Drawn

theorem drawn_step (drawn : Drawn before) (effect : WriterEffect before after event)
    (stepped : before.step limits event = some after) : Drawn after := by
  have grown := issued_step stepped
  have fewer := drawn.fewer grown
  cases effect with
  | offered _ _ _ _ _ _ calls _ _ logs =>
    obtain ⟨unissued, issued⟩ := issued_publish stepped
    exact drawn.offers unissued issued rfl calls (admissions_of_receipts logs.receipts)
  | repeated _ _ _ _ _ _ _ _ _ calls _ _ receipts
  | storedDirectly _ _ _ _ _ _ _ _ _ _ _ calls _ _ receipts =>
    exact fewer (fun _ _ waiting => calls ▸ waiting) (admissions_of_other receipts rfl)
  | admitted _ _ waiting calls _ _ _ receipts =>
    exact drawn.admits grown waiting calls (admissions_of_admitted receipts)
  | withdrawn _ _ _ _ _ calls _ _ logs =>
    refine fewer ?_ (admissions_of_receipts logs.receipts)
    simp only [calls, Function.update_apply]
    grind
  | settled _ offers _ _ logs =>
    exact fewer (fun call input waiting => (offers call input).mp waiting)
      (admissions_of_receipts logs.receipts)
  | moved _ _ _ same =>
    exact fewer (fun call input waiting => by rwa [same] at waiting)
      (admissions_of_receipts (same ▸ rfl))
  | batchStored _ _ _ _ _ _ _ _ _ _ _ calls _ _ receipts =>
    exact fewer (fun _ _ waiting => calls ▸ waiting) (admissions_of_receipts receipts)
  | acted _ _ _ _ _ _ calls _ _ logs =>
    exact fewer (fun _ _ waiting => calls ▸ waiting) (admissions_of_receipts logs.receipts)

/-! ## The rows of stored messages -/

/-- A row of a stored message: it has its `created_at` from the batch, and as long as it
has not been claimed it is ready from then on. -/
structure TrackedRow (item : EnqueueInput × Nat) (row : MessageRow) : Prop where
  topic : row.topic = item.1.topic
  createdAt : row.createdAt = item.2
  counted : 0 ≤ row.attempts
  unclaimed : row.attempts = 0 → row.nextAttemptAt = row.createdAt ∧ row.status ≠ .processing

/-- Every row of a stored message is one that its batch has made. -/
def Tracked (stored : List (EnqueueInput × Nat)) (table : MessageTable) : Prop :=
  ∀ item ∈ stored, ∀ row ∈ table.rows, row.id = item.1.id → TrackedRow item row

def Unclaimed (row : MessageRow) : Prop :=
  row.attempts = 0 ∧ row.status = .pending

namespace TrackedRow

variable {item : EnqueueInput × Nat} {row : MessageRow}

theorem fresh (item : EnqueueInput × Nat) : TrackedRow item (item.1.row item.2) :=
  ⟨rfl, rfl, Int.le_refl 0, fun _ => ⟨rfl, nofun⟩⟩

/-- A row stays tracked, and what still waits for its first claim was not touched. -/
theorem moves (tracked : TrackedRow item row) {request : Action} {store : Store}
    {next : MessageRow} (moves : Moves request store row next) :
    TrackedRow item next ∧ (Unclaimed next → next = row) := by
  obtain ⟨topic, createdAt, counted, unclaimed⟩ := tracked
  cases moves with
  | same => exact ⟨⟨topic, createdAt, counted, unclaimed⟩, fun _ => rfl⟩
  | updated statement picked _ matched =>
    cases statement <;>
      simp only [Update.guard, Bool.and_eq_true, decide_eq_true_eq, MessageRow.held_iff] at matched
    all_goals
      refine ⟨⟨topic, createdAt, ?_, ?_⟩, ?_⟩
      all_goals grind [Update.set, Unclaimed]
  | delivered now group _ presented =>
    obtain ⟨pair, _, held⟩ := MessageRow.presented_iff.mp presented
    rw [MessageRow.held_iff] at held
    refine ⟨⟨topic, createdAt, counted, fun first => ?_⟩, fun waits => by cases waits.2⟩
    exact absurd held.2.2 (unclaimed first).2

end TrackedRow

/-- What is tracked stays so, and what still waits for its first claim was there before. -/
def Follows (stored : List (EnqueueInput × Nat)) (before after : MessageTable) : Prop :=
  Tracked stored after ∧ ∀ item ∈ stored, ∀ row ∈ after.rows, row.id = item.1.id →
    Unclaimed row → row ∈ before.rows

theorem Tracked.follows {before after : MessageTable} (tracked : Tracked stored before)
    (kept : ∀ item ∈ stored, ∀ row ∈ after.rows, row.id = item.1.id → row ∈ before.rows) :
    Follows stored before after := by
  refine ⟨fun item member row listed same => ?_, fun item member row listed same _ => ?_⟩
  · exact tracked item member row (kept item member row listed same) same
  · exact kept item member row listed same

theorem follows_effect {before after : Database} {request : Action} {answer : Reply request}
    {store : Store} (tracked : Tracked stored (before.messages store))
    (effect : Effect before request answer after) (storesNothing : request.storesMessages = false) :
    Follows stored (before.messages store) (after.messages store) := by
  have origin : ∀ item ∈ stored, ∀ row ∈ (after.messages store).rows, row.id = item.1.id →
      ∃ earlier ∈ (before.messages store).rows,
        TrackedRow item row ∧ (Unclaimed row → row = earlier) := by
    intro item member row listed same
    rcases effect.rows_after listed with ⟨earlier, found, moves⟩ | created
    · have sameId := congrArg Message.id moves.toMessage_eq
      exact ⟨earlier, found,
        (tracked item member earlier found (sameId.symm.trans same)).moves moves⟩
    · cases created with
      | enqueued _ _ asked | copied _ asked =>
        rw [asked] at storesNothing
        cases storesNothing
  refine ⟨fun item member row listed same => ?_, fun item member row listed same waits => ?_⟩
  · obtain ⟨_, _, isTracked, _⟩ := origin item member row listed same
    exact isTracked
  · obtain ⟨_, found, _, unchanged⟩ := origin item member row listed same
    rwa [unchanged waits]

theorem freshItems_cons (item : EnqueueInput × Nat) (items : List (EnqueueInput × Nat))
    (result : String × Bool) (results : List (String × Bool)) :
    freshItems (item :: items) (result :: results) =
      if result.2 then freshItems items results
      else item :: freshItems items results := by
  rw [freshItems, List.zip_cons_cons, List.filter_cons]
  cases result.2 with
  | true => rfl
  | false => rfl

theorem freshItems_sublist : ∀ (items : List (EnqueueInput × Nat)) (results : List (String × Bool)),
    (freshItems items results).Sublist items
  | [], _ => List.nil_sublist _
  | _ :: _, [] => List.nil_sublist _
  | item :: items, result :: results => by
    rw [freshItems_cons]
    split
    · exact (freshItems_sublist items results).cons item
    · exact (freshItems_sublist items results).cons_cons item

theorem not_mem_of_freshItems : ∀ {group : List (EnqueueInput × Nat)} {table stored : MessageTable}
    {results : List (String × Bool)},
    enqueueGroup group table = .ok (results, stored) →
      ∀ item ∈ freshItems group results, ∀ row ∈ table.rows, row.id ≠ item.1.id
  | [], table, stored, results, accepted => by
    cases accepted
    intro item member
    cases member
  | (input, now) :: rest, table, stored, results, accepted => by
    obtain ⟨_, _, _, first, group, rfl⟩ := enqueueGroup_cons accepted
    intro item member row listed same
    rw [freshItems_cons] at member
    rcases enqueueItem_cases first with ⟨free, rfl, rows⟩ | ⟨key, original, _, _, _, rfl, unchanged⟩
    · rcases List.mem_cons.mp member with rfl | older
      · exact free ⟨row, listed, .inl same⟩
      · refine not_mem_of_freshItems group item older row ?_ same
        rw [rows]
        exact List.mem_append_left _ listed
    · refine not_mem_of_freshItems group item member row ?_ same
      rw [unchanged]
      exact listed

variable {group : List (EnqueueInput × Nat)} {table next : MessageTable}

/-- A stored batch adds rows of its new messages and leaves the others alone. -/
theorem tracked_batch {results : List (String × Bool)} (wanted : EnqueueInput × Nat → Bool)
    (tracked : Tracked stored table) (accepted : enqueueGroup group table = .ok (results, next))
    (distinct : (group.map fun item => item.1.id).Nodup)
    (apart : ∀ item ∈ stored, ∀ other ∈ group, item.1.id ≠ other.1.id) :
    Tracked (stored ++ (freshItems group results).filter wanted) next ∧
      ∀ item ∈ stored ++ (freshItems group results).filter wanted, ∀ row ∈ next.rows,
        row.id = item.1.id →
          (item ∈ stored ∧ row ∈ table.rows) ∨ (item ∈ group ∧ row.createdAt = item.2) := by
  have origin : ∀ item ∈ stored ++ (freshItems group results).filter wanted, ∀ row ∈ next.rows,
      row.id = item.1.id →
        (item ∈ stored ∧ row ∈ table.rows) ∨ (item ∈ group ∧ row = item.1.row item.2) := by
    intro item member row listed same
    have added := (enqueueGroup_rows accepted).2 row listed
    rcases List.mem_append.mp member with old | new
    · refine .inl ⟨old, ?_⟩
      rcases added with before | ⟨other, otherMember, rfl⟩
      · exact before
      · exact absurd same.symm (apart item old other otherMember)
    · have fresh := (List.mem_filter.mp new).1
      have inGroup := (freshItems_sublist group results).subset fresh
      rcases added with before | ⟨other, otherMember, rfl⟩
      · exact absurd same (not_mem_of_freshItems accepted item fresh row before)
      · rw [List.inj_on_of_nodup_map distinct otherMember inGroup same]
        exact .inr ⟨inGroup, rfl⟩
  constructor
  · intro item member row listed same
    rcases origin item member row listed same with ⟨old, before⟩ | ⟨_, rfl⟩
    · exact tracked item old row before same
    · exact TrackedRow.fresh item
  · intro item member row listed same
    rcases origin item member row listed same with before | ⟨inGroup, rfl⟩
    · exact .inl before
    · exact .inr ⟨inGroup, rfl⟩

theorem follows_item {now : Nat} {result : String × Bool}
    (tracked : Tracked stored table) (accepted : enqueueItem input now table = .ok (result, next))
    (apart : ∀ item ∈ stored, item.1.id ≠ input.id) : Follows stored table next := by
  refine tracked.follows fun item member row listed same => ?_
  rcases enqueueItem_cases accepted with ⟨_, _, rows⟩ | ⟨_, _, _, _, _, _, rfl⟩
  · rw [rows] at listed
    rcases List.mem_append.mp listed with before | new
    · exact before
    · rw [List.mem_singleton.mp new] at same
      exact absurd same.symm (apart item member)
  · exact listed

/-! ## First claims -/

/-- The first claims so far: they are of stored messages, in the order of their
`created_at`, and none came before a message that still waits for its own. -/
structure Handed (stored : List (EnqueueInput × Nat)) (claimed : List ClaimedMessage)
    (table : MessageTable) : Prop where
  origin :
    ∀ message ∈ claimed, ∃ item ∈ stored, item.1.id = message.id ∧ message.createdAt = item.2
  ahead :
    ∀ message ∈ claimed, ∀ item ∈ stored, ∀ row ∈ table.rows, row.id = item.1.id →
      Unclaimed row → message.createdAt ≤ row.createdAt
  sorted :
    claimed.Pairwise fun earlier later => earlier.createdAt ≤ later.createdAt

section Claim

variable {stored : List (EnqueueInput × Nat)} {table : MessageTable} {topic lease : String}
  {visibleAgain now limit : Nat} {picked : List String}

theorem unclaimed_of_first {message : ClaimedMessage}
    (member :
      message ∈ Db.returned lease
          ((Update.claimBatch lease visibleAgain now topic limit).execute picked table).1)
    (first : message.attempts = 1) :
    ∃ row ∈ table.rows, row.id = message.id ∧ row.createdAt = message.createdAt ∧
      row.id ∈ picked ∧ Unclaimed row := by
  obtain ⟨row, affected, rfl⟩ := mem_returned member
  obtain ⟨earlier, found, guarded, rfl⟩ := Update.mem_affected.mp affected
  simp only [Update.guard, Bool.and_eq_true, decide_eq_true_eq] at guarded
  refine ⟨earlier, found, rfl, rfl, guarded.1, ?_, guarded.2⟩
  have counted : earlier.attempts + 1 = 1 := first
  omega

/-- Among the messages that wait for their first claim, the ones that a claim takes are
not younger than those it leaves. -/
theorem picked_first (tracked : Tracked stored table)
    (oneTopic : ∀ item ∈ stored, item.1.topic = topic)
    (admits : (Update.claimBatch lease visibleAgain now topic limit).Admits table picked)
    {taken left : EnqueueInput × Nat} (takenStored : taken ∈ stored) (leftStored : left ∈ stored)
    {row rest : MessageRow} (found : row ∈ table.rows) (rowId : row.id = taken.1.id)
    (unclaimed : Unclaimed row) (isPicked : row.id ∈ picked) (restFound : rest ∈ table.rows)
    (restId : rest.id = left.1.id) (restUnclaimed : Unclaimed rest) (notPicked : rest.id ∉ picked) :
    row.createdAt ≤ rest.createdAt := by
  obtain ⟨_, _, candidates, oldest⟩ := admits
  have candidate : row ∈ table.rows.filter fun row => row.ready now && row.topic = topic := by
    obtain ⟨same, member, sameId⟩ := candidates row.id isPicked
    have listed := (List.mem_filter.mp member).1
    rwa [table.eq_of_primary_eq listed found sameId] at member
  have ready : row.nextAttemptAt ≤ now := by
    have passes := (List.mem_filter.mp candidate).2
    simp only [MessageRow.ready, Bool.and_eq_true, decide_eq_true_eq] at passes
    exact passes.1.2
  have rowTracked := tracked taken takenStored row found rowId
  have restTracked := tracked left leftStored rest restFound restId
  by_cases restReady : rest.nextAttemptAt ≤ now
  · refine oldest row candidate rest ?_ isPicked notPicked
    refine List.mem_filter.mpr ⟨restFound, ?_⟩
    simp [MessageRow.ready, restUnclaimed.2, restReady, restTracked.topic, oneTopic left leftStored]
  · -- not ready yet, so it was created after the claim read the clock
    rw [← (rowTracked.unclaimed unclaimed.1).1, ← (restTracked.unclaimed restUnclaimed.1).1]
    omega

theorem left_of_claim (tracked : Tracked stored table) {item : EnqueueInput × Nat}
    (member : item ∈ stored) {row : MessageRow}
    (listed :
      row ∈ ((Update.claimBatch lease visibleAgain now topic limit).execute picked table).2.rows)
    (same : row.id = item.1.id) (unclaimed : Unclaimed row) :
    row ∈ table.rows ∧ row.id ∉ picked := by
  obtain ⟨earlier, found, rfl⟩ := Update.mem_execute.mp listed
  rw [Update.rewrite_id] at same
  have counted := (tracked item member earlier found same).counted
  rw [Update.rewrite] at unclaimed ⊢
  split at unclaimed
  · have claimed : earlier.attempts + 1 = 0 := unclaimed.1
    omega
  · next unguarded =>
    rw [if_neg unguarded]
    refine ⟨found, fun isPicked => unguarded ?_⟩
    simp [Update.guard, isPicked, unclaimed.2]

theorem handed_claim {claimed : List ClaimedMessage} (handed : Handed stored claimed table)
    (tracked : Tracked stored table) (oneTopic : ∀ item ∈ stored, item.1.topic = topic)
    (admits : (Update.claimBatch lease visibleAgain now topic limit).Admits table picked) :
    Handed stored
      (claimed ++ (Db.returned lease
          ((Update.claimBatch lease visibleAgain now topic limit).execute picked
            table).1).filter fun message =>
              message.attempts = 1 && stored.any fun item => item.1.id = message.id)
      ((Update.claimBatch lease visibleAgain now topic limit).execute picked table).2 := by
  have first : ∀ message ∈ (Db.returned lease
      ((Update.claimBatch lease visibleAgain now topic limit).execute picked
        table).1).filter fun message =>
          message.attempts = 1 && stored.any fun item => item.1.id = message.id,
        ∃ item ∈ stored, ∃ row ∈ table.rows, row.id = item.1.id ∧
          item.1.id = message.id ∧ row.createdAt = message.createdAt ∧
          row.id ∈ picked ∧ Unclaimed row := by
    intro message member
    obtain ⟨returned, wanted⟩ := List.mem_filter.mp member
    simp only [Bool.and_eq_true, decide_eq_true_eq, List.any_eq_true] at wanted
    obtain ⟨once, item, isStored, sameId⟩ := wanted
    obtain ⟨row, found, rowId, createdAt, isPicked, unclaimed⟩ := unclaimed_of_first returned once
    exact
      ⟨item, isStored, row, found, rowId.trans sameId.symm, sameId, createdAt, isPicked, unclaimed⟩
  constructor
  · intro message member
    rcases List.mem_append.mp member with old | new
    · exact handed.origin message old
    · obtain ⟨item, isStored, row, found, rowId, sameId, createdAt, _, _⟩ :=
        first message new
      refine ⟨item, isStored, sameId, ?_⟩
      rw [← createdAt]
      exact (tracked item isStored row found rowId).createdAt
  · intro message member item isStored row listed same unclaimed
    obtain ⟨found, notPicked⟩ := left_of_claim tracked isStored listed same unclaimed
    rcases List.mem_append.mp member with old | new
    · exact handed.ahead message old item isStored row found same unclaimed
    · obtain ⟨taken, takenStored, takenRow, takenFound, takenId, _, createdAt, isPicked,
        takenUnclaimed⟩ := first message new
      rw [← createdAt]
      exact picked_first tracked oneTopic admits takenStored isStored takenFound takenId
        takenUnclaimed isPicked found same unclaimed notPicked
  · refine List.pairwise_append.mpr ⟨handed.sorted, (returned_sorted _ _).filter _, ?_⟩
    intro earlier old later new
    obtain ⟨item, isStored, row, found, rowId, _, createdAt, _, unclaimed⟩ := first later new
    rw [← createdAt]
    exact handed.ahead earlier old item isStored row found rowId unclaimed

end Claim

theorem handed_of_fewer {claimed : List ClaimedMessage} (handed : Handed stored claimed table)
    (fewer :
      ∀ item ∈ stored, ∀ row ∈ next.rows, row.id = item.1.id → Unclaimed row → row ∈ table.rows) :
    Handed stored claimed next :=
  ⟨handed.origin,
    fun message member item isStored row listed same unclaimed =>
      handed.ahead message member item isStored row
        (fewer item isStored row listed same unclaimed) same unclaimed,
    handed.sorted⟩

/-! ## Every step -/

variable {times : List Nat} {choice : Choice}

/-- One attempt of a batch: it stores nothing, or the whole batch. -/
theorem persist_cases (stepped : before.step limits (.persist shard times choice) = some after) :
    (TopicLog.storedBy before shard (.persist shard times choice) = [] ∧
        after.db.messages = before.db.messages) ∨
      ∃ enqueues acks stop results table,
        (before.shards shard).phase = .persisting enqueues acks stop ∧
        times.length = enqueues.length ∧
        enqueueGroup (enqueues.zip times) (before.db.messages (.shard shard)) =
          .ok (results, table) ∧
        TopicLog.storedBy before shard (.persist shard times choice) =
          freshItems (enqueues.zip times) results ∧
        after.shards = Function.update before.shards shard
            ((before.shards shard).turnToAcks acks stop) ∧
        after.db.messages = Function.update before.db.messages (.shard shard) table ∧
        after.receipts = before.receipts := by
  simp only [Writer.step, Writer.persist] at stepped
  simp only [TopicLog.storedBy, if_true]
  split at stepped
  · next acks stop phase =>
    cases stepped
    refine .inl ⟨?_, rfl⟩
    rw [phase]
    dsimp only
    split
    · rfl
    · rfl
  · next enqueues acks stop nonempty phase =>
    rw [phase]
    dsimp only
    split at stepped
    · next timed =>
      split at stepped
      · cases stepped
      · next problem db performed =>
        cases stepped
        rw [performed]
        rcases perform_enqueue performed with ⟨_, _, messages⟩ | ⟨_, _, answered, _⟩
        · exact .inl ⟨rfl, messages⟩
        · cases answered
      · next results db performed =>
        cases stepped
        rw [performed]
        rcases perform_enqueue performed with
          ⟨_, answered, _⟩ | ⟨given, table, answered, accepted, messages⟩
        · cases answered
        · cases answered
          exact .inr
            ⟨enqueues, acks, stop, results, table, rfl, timed, accepted, rfl, rfl, messages, rfl⟩
    · cases stepped
  · cases stepped

/-- What holds of a topic at every point of a run.  Nothing is said about the first
claims unless the clock has not gone back. -/
structure Ordered (topic : String) (writer : Writer) (log : TopicLog) : Prop where
  wellFormed : writer.WellFormed
  drawn : Drawn writer
  lined : Lined (topicShard topic) log.stored writer
  oneTopic : ∀ item ∈ log.stored, item.1.topic = topic
  timed : (log.stored.map Prod.snd).Sublist log.readings
  tracked : Tracked log.stored (writer.db.messages (.shard (topicShard topic)))
  handed :
    log.readings.Pairwise (· ≤ ·) →
      Handed log.stored log.claimed (writer.db.messages (.shard (topicShard topic)))

variable {log : TopicLog}

theorem Ordered.mem_admissions (ordered : Ordered topic writer log) {item : EnqueueInput × Nat}
    (member : item ∈ log.stored) :
    item.1.receipt ∈ writer.admissions := by
  obtain ⟨done, behind, front⟩ := ordered.lined
  have onward := (List.sublist_append_left done _).trans front
  exact (behind.trans onward).subset (List.mem_map.mpr ⟨item, member, rfl⟩)

theorem follows_step (ordered : Ordered topic before log)
    (effect : WriterEffect before after event) (stepped : before.step limits event = some after)
    (elsewhere : ∀ times choice, event ≠ .persist (topicShard topic) times choice) :
    Follows log.stored (before.db.messages (.shard (topicShard topic)))
      (after.db.messages (.shard (topicShard topic))) := by
  have unchanged : after.db.messages (.shard (topicShard topic)) =
      before.db.messages (.shard (topicShard topic)) →
        Follows log.stored (before.db.messages (.shard (topicShard topic)))
          (after.db.messages (.shard (topicShard topic))) := by
    intro same
    exact ordered.tracked.follows fun _ _ _ listed _ => same ▸ listed
  cases effect with
  | offered _ _ _ _ _ _ _ _ messages | repeated _ _ _ _ _ _ _ _ _ _ _ messages
  | admitted _ _ _ _ _ _ messages | withdrawn _ _ _ _ _ _ _ messages
  | settled _ _ _ messages => exact unchanged (congrFun messages _)
  | moved _ _ _ same => exact unchanged (same ▸ rfl)
  | batchStored choice target _ _ _ times _ _ _ _ _ _ _ messages =>
    have different : Store.shard (topicShard topic) ≠ .shard target := by
      intro same
      cases same
      exact elsewhere times choice rfl
    refine unchanged ?_
    rw [messages, Function.update_of_ne different]
  | storedDirectly key name payload attributes uuid _ _ id _ _ accepted _ _ messages =>
    by_cases here : Store.shard (topicShard topic) = .shard (topicShard name)
    · rw [messages, here, Function.update_self]
      refine follows_item (here ▸ ordered.tracked) accepted fun item member => ?_
      have issued := ordered.drawn.admittedIssued _ (ordered.mem_admissions member)
      exact issued.ne (issued_store stepped)
    · refine unchanged ?_
      rw [messages, Function.update_of_ne here]
  | acted _ _ _ effect storesNothing =>
    exact follows_effect ordered.tracked effect storesNothing

theorem Ordered.apart (ordered : Ordered topic writer log) {acks : List DeliveredCommand}
    {stop : Option Nat}
    (phase : (writer.shards (topicShard topic)).phase = .persisting enqueues acks stop) :
    (enqueues.map EnqueueInput.id).Nodup ∧
      ∀ item ∈ log.stored, ∀ input ∈ enqueues, item.1.id ≠ input.id := by
  obtain ⟨done, behind, front⟩ := ordered.lined
  have line : (writer.shards (topicShard topic)).unstored =
      enqueues ++ (writer.shards (topicShard topic)).queued := by
    rw [WriterShard.unstored, phase]
    rfl
  rw [line, List.map_append] at front
  have ids : (log.stored.map (fun item => item.1.id) ++ enqueues.map EnqueueInput.id).Nodup := by
    have whole :=
      (behind.append (List.sublist_append_left (enqueues.map EnqueueInput.receipt) _)).trans front
    have nodup := ordered.drawn.admittedOnce.sublist (whole.map Receipt.id)
    rw [List.map_append, List.map_map, List.map_map] at nodup
    exact nodup
  obtain ⟨_, distinct, disjoint⟩ := List.nodup_append.mp ids
  refine ⟨distinct, fun item member input listed => ?_⟩
  exact disjoint _ (List.mem_map.mpr ⟨item, member, rfl⟩) _ (List.mem_map.mpr ⟨input, listed, rfl⟩)

theorem claimedBy_cases (writer : Writer) (topic : String) (event : WriterEvent) :
    TopicLog.claimedBy writer topic event = [] ∨ ∃ lease visibleAgain now limit choice rows db,
        event = .other
            (.sql
              (.update (.shard (topicShard topic))
                (.claimBatch lease visibleAgain now topic limit)))
            choice ∧
        perform choice writer.db
            (.sql
              (.update (.shard (topicShard topic))
                (.claimBatch lease visibleAgain now topic limit))) =
          some (.ok rows, db) ∧
        TopicLog.claimedBy writer topic event = Db.returned lease rows := by
  unfold TopicLog.claimedBy
  split
  · next store lease visibleAgain now name limit choice =>
    split
    · next here =>
      obtain ⟨rfl, rfl⟩ := here
      split
      · next rows db performed =>
        exact .inr ⟨lease, visibleAgain, now, limit, choice, rows, db, rfl, performed, rfl⟩
      · exact .inl rfl
    · exact .inl rfl
  · exact .inl rfl

/-- Away from the batches of its shard only claims are added to the log. -/
theorem record_elsewhere
    (elsewhere : ∀ times choice, event ≠ .persist (topicShard topic) times choice)
    (writer : Writer) (log : TopicLog) :
    log.record topic writer event =
      { log with
        claimed :=
          log.claimed ++ (TopicLog.claimedBy writer topic event).filter fun message =>
              message.attempts = 1 && log.stored.any fun item => item.1.id = message.id } := by
  have quiet : TopicLog.readingsOf (topicShard topic) event = [] ∧
      TopicLog.storedBy writer (topicShard topic) event = [] := by
    cases event with
    | persist shard times choice =>
      have different : shard ≠ topicShard topic := by
        rintro rfl
        exact elsewhere times choice rfl
      exact ⟨if_neg different, if_neg different⟩
    | _ => exact ⟨rfl, rfl⟩
  rw [TopicLog.record, quiet.1, quiet.2]
  simp

theorem ordered_elsewhere (ordered : Ordered topic before log)
    (stepped : before.step limits event = some after)
    (elsewhere : ∀ times choice, event ≠ .persist (topicShard topic) times choice) :
    Ordered topic after (log.record topic before event) := by
  have effect := Writer.step_effect ordered.wellFormed stepped
  obtain ⟨tracked, fewer⟩ := follows_step ordered effect stepped elsewhere
  rw [record_elsewhere elsewhere]
  refine ⟨Writer.wellFormed_step ordered.wellFormed stepped,
    drawn_step ordered.drawn effect stepped, lined_step ordered.lined effect,
    ordered.oneTopic, ordered.timed, tracked, fun clock => ?_⟩
  have handed := ordered.handed clock
  rcases claimedBy_cases before topic event with
    nothing | ⟨lease, visibleAgain, now, limit, choice, rows, db, rfl, performed, claimed⟩
  · dsimp only
    rw [nothing, List.filter_nil, List.append_nil]
    exact handed_of_fewer handed fewer
  · dsimp only
    rw [claimed]
    have reached : after.db = db := by
      simp only [Writer.step, Writer.other, performed] at stepped
      split at stepped <;> cases stepped
      rfl
    rw [reached]
    cases perform_effect performed with
    | updated _ _ _ admits =>
      rw [Database.setMessages_messages_self]
      exact handed_claim handed ordered.tracked ordered.oneTopic admits
    | other _ _ _ harmless => exact harmless.elim

theorem ordered_idle (ordered : Ordered topic before log)
    (stepped : before.step limits (.persist (topicShard topic) times choice) = some after)
    (messages : after.db.messages = before.db.messages) :
    Ordered topic after { log with readings := log.readings ++ times } := by
  have effect := Writer.step_effect ordered.wellFormed stepped
  refine ⟨Writer.wellFormed_step ordered.wellFormed stepped,
    drawn_step ordered.drawn effect stepped, lined_step ordered.lined effect,
    ordered.oneTopic, ?_, ?_, fun clock => ?_⟩
  · exact ordered.timed.trans (List.sublist_append_left _ _)
  · rw [messages]
    exact ordered.tracked
  · rw [messages]
    exact ordered.handed (List.pairwise_append.mp clock).1

theorem freshItems_timed (timed : times.length = enqueues.length) (results : List (String × Bool))
    (wanted : EnqueueInput × Nat → Bool) :
    (((freshItems (enqueues.zip times) results).filter wanted).map Prod.fst).Sublist enqueues ∧
      (((freshItems (enqueues.zip times) results).filter wanted).map Prod.snd).Sublist
        times := by
  have fewer : ((freshItems (enqueues.zip times) results).filter wanted).Sublist
      (enqueues.zip times) :=
    List.filter_sublist.trans (freshItems_sublist (enqueues.zip times) results)
  constructor
  · have taken := fewer.map Prod.fst
    rwa [List.map_fst_zip timed.ge] at taken
  · have taken := fewer.map Prod.snd
    rwa [List.map_snd_zip timed.le] at taken

theorem handed_batch {claimed : List ClaimedMessage} {results : List (String × Bool)}
    {wanted : EnqueueInput × Nat → Bool} {readings : List Nat}
    (handed : Handed stored claimed table) (timed : (stored.map Prod.snd).Sublist readings)
    (clock : (readings ++ times).Pairwise (· ≤ ·)) (within : ∀ item ∈ group, item.2 ∈ times)
    (origin :
      ∀ item ∈ stored ++ (freshItems group results).filter wanted, ∀ row ∈ next.rows,
        row.id = item.1.id →
          (item ∈ stored ∧ row ∈ table.rows) ∨ (item ∈ group ∧ row.createdAt = item.2)) :
    Handed (stored ++ (freshItems group results).filter wanted) claimed next := by
  refine ⟨fun message member => ?_, ?_, handed.sorted⟩
  · obtain ⟨item, isStored, same, createdAt⟩ := handed.origin message member
    exact ⟨item, List.mem_append_left _ isStored, same, createdAt⟩
  · intro message member item isStored row listed same unclaimed
    rcases origin item isStored row listed same with ⟨old, found⟩ | ⟨inGroup, createdAt⟩
    · exact handed.ahead message member item old row found same unclaimed
    · obtain ⟨first, firstStored, _, firstAt⟩ := handed.origin message member
      rw [firstAt, createdAt]
      have earlier : first.2 ∈ readings := timed.subset (List.mem_map.mpr ⟨first, firstStored, rfl⟩)
      exact (List.pairwise_append.mp clock).2.2 _ earlier _ (within item inGroup)

theorem ordered_persist (ordered : Ordered topic before log)
    (stepped : before.step limits (.persist (topicShard topic) times choice) = some after) :
    Ordered topic after (log.record topic before (.persist (topicShard topic) times choice)) := by
  have recorded : log.record topic before (.persist (topicShard topic) times choice) =
      { readings := log.readings ++ times
        stored :=
          log.stored ++ (TopicLog.storedBy before (topicShard topic)
              (.persist (topicShard topic) times choice)).filter fun item => item.1.topic = topic
        claimed := log.claimed } := by
    simp [TopicLog.record, TopicLog.readingsOf, TopicLog.claimedBy]
  rw [recorded]
  have effect := Writer.step_effect ordered.wellFormed stepped
  rcases persist_cases stepped with
    ⟨nothing, messages⟩ |
      ⟨enqueues, acks, stop, results, table, phase, timed, accepted, stored, shards,
        messages, receipts⟩
  · rw [nothing, List.filter_nil, List.append_nil]
    exact ordered_idle ordered stepped messages
  · rw [stored]
    obtain ⟨taken, instants⟩ :=
      freshItems_timed timed results fun item => decide (item.1.topic = topic)
    obtain ⟨distinct, apart⟩ := ordered.apart phase
    have ids : (enqueues.zip times).map (fun item => item.1.id) = enqueues.map EnqueueInput.id := by
      rw [← List.map_fst_zip timed.ge, List.map_map, List.map_fst_zip timed.ge]
      rfl
    obtain ⟨tracked, origin⟩ :=
      tracked_batch (fun item => decide (item.1.topic = topic)) ordered.tracked accepted
        (ids ▸ distinct)
        (fun item member other listed => apart item member other.1 (List.of_mem_zip listed).1)
    have table_eq : after.db.messages (.shard (topicShard topic)) = table := by
      rw [messages, Function.update_self]
    refine ⟨Writer.wellFormed_step ordered.wellFormed stepped,
      drawn_step ordered.drawn effect stepped,
      lined_batchStored ordered.lined phase shards receipts taken, ?_, ?_, ?_,
      fun clock => ?_⟩
    · intro item member
      rcases List.mem_append.mp member with old | new
      · exact ordered.oneTopic item old
      · exact of_decide_eq_true (List.mem_filter.mp new).2
    · dsimp only
      rw [List.map_append]
      exact ordered.timed.append instants
    · rw [table_eq]
      exact tracked
    · rw [table_eq]
      exact handed_batch (ordered.handed (List.pairwise_append.mp clock).1) ordered.timed clock
        (fun item listed => (List.of_mem_zip listed).2) origin

theorem ordered_step (ordered : Ordered topic before log)
    (stepped : before.step limits event = some after) :
    Ordered topic after (log.record topic before event) := by
  by_cases here : ∃ times choice, event = .persist (topicShard topic) times choice
  · obtain ⟨times, choice, rfl⟩ := here
    exact ordered_persist ordered stepped
  · exact ordered_elsewhere ordered stepped fun times choice same => here ⟨times, choice, same⟩

variable {order : ShardIndex → List String}

theorem ordered_start {db : Database} {initial : Writer}
    (started : Writer.start limits db order = some initial) (topic : String) :
    Ordered topic initial {} := by
  have wellFormed := Writer.wellFormed_start started
  unfold Writer.start at started
  split at started <;> cases started
  refine ⟨wellFormed, ?_, ⟨[], List.Sublist.refl _, List.Sublist.refl _⟩, ?_, ?_, ?_, ?_⟩
  · refine ⟨?_, ?_, ?_, ?_, List.nodup_nil⟩
    · intro call input waiting
      cases waiting
    · intro receipt member
      cases member
    · intro call input other later waiting
      cases waiting
    · intro call input waiting
      cases waiting
  · intro item member
    cases member
  · exact List.Sublist.refl _
  · intro item member
    cases member
  · intro _
    refine ⟨?_, ?_, List.Pairwise.nil⟩
    · intro message member
      cases member
    · intro message member
      cases member

theorem ordered_replay {db : Database} {initial final : Writer}
    {events : List WriterEvent} (started : Writer.start limits db order = some initial)
    (ran : replayLogged limits topic initial events = some (final, log)) :
    Ordered topic final log := by
  have preserved : ∀ {current reached : Writer × TopicLog} {event : WriterEvent},
      Ordered topic current.1 current.2 → stepLogged limits topic current event = some reached →
          Ordered topic reached.1 reached.2 := by
    intro current reached event ordered stepped
    obtain ⟨next, moved, rfl⟩ := Option.map_eq_some_iff.mp stepped
    exact ordered_step ordered moved
  exact @run_invariant _ _ _ (fun state => Ordered topic state.1 state.2) preserved _ _ _
    (ordered_start started topic) ran

theorem not_sublist_of_sublist {α : Type*} {left right : α} :
    ∀ {items : List α}, items.Nodup → [left, right].Sublist items → ¬ [right, left].Sublist items
  | [], _, order, _ => nomatch order
  | head :: rest, distinct, order, reversed => by
    obtain ⟨notIn, nodup⟩ := List.nodup_cons.mp distinct
    cases order with
    | cons _ later =>
      cases reversed with
      | cons _ other => exact not_sublist_of_sublist nodup later other
      | cons_cons => exact notIn (later.subset (.tail _ (.head _)))
    | cons_cons _ later =>
      cases reversed with
      | cons _ other => exact notIn (other.subset (.tail _ (.head _)))
      | cons_cons => exact notIn (later.subset (.head _))

theorem Ordered.stored_sublist (ordered : Ordered topic writer log) :
    (log.stored.map fun item => item.1.receipt).Sublist (writer.admitted topic) := by
  obtain ⟨done, behind, front⟩ := ordered.lined
  have onward := (List.sublist_append_left done _).trans front
  have kept := (behind.trans onward).filter fun receipt => decide (receipt.topic = topic)
  have all : (log.stored.map fun item => item.1.receipt).filter
      (fun receipt => decide (receipt.topic = topic)) =
        log.stored.map fun item => item.1.receipt := by
    rw [List.filter_eq_self]
    intro receipt member
    obtain ⟨item, isStored, rfl⟩ := List.mem_map.mp member
    exact decide_eq_true (ordered.oneTopic item isStored)
  rw [all] at kept
  exact kept

/-- Of two stored messages the one admitted first was not created later. -/
theorem Ordered.createdAt_le (ordered : Ordered topic writer log)
    (clock : log.readings.Pairwise (· ≤ ·)) :
    ∀ first ∈ log.stored, ∀ second ∈ log.stored,
      [first.1.id, second.1.id].Sublist ((writer.admitted topic).map Receipt.id) →
        first.2 ≤ second.2 := by
  have ids : (log.stored.map fun item => item.1.id).Sublist
      ((writer.admitted topic).map Receipt.id) := by
    have mapped := ordered.stored_sublist.map Receipt.id
    rw [List.map_map] at mapped
    exact mapped
  have distinct : ((writer.admitted topic).map Receipt.id).Nodup :=
    ordered.drawn.admittedOnce.sublist (List.filter_sublist.map Receipt.id)
  have instants := List.pairwise_map.mp (clock.sublist ordered.timed)
  -- both orders at once, so that the relation is symmetric
  let agrees (first second : EnqueueInput × Nat) : Prop :=
    ([first.1.id, second.1.id].Sublist ((writer.admitted topic).map Receipt.id) →
        first.2 ≤ second.2) ∧
      ([second.1.id, first.1.id].Sublist ((writer.admitted topic).map Receipt.id) →
        second.2 ≤ first.2)
  have pairwise : log.stored.Pairwise agrees := by
    rw [List.pairwise_iff_forall_sublist]
    intro first second order
    have le := List.pairwise_iff_forall_sublist.mp instants order
    refine ⟨fun _ => le, fun reversed => ?_⟩
    exact absurd reversed (not_sublist_of_sublist distinct ((order.map _).trans ids))
  have symmetric : Std.Symm agrees := ⟨fun _ _ both => ⟨both.2, both.1⟩⟩
  intro first isFirst second isSecond
  exact (List.Pairwise.forall_of_forall (fun _ _ => ⟨fun _ => le_rfl, fun _ => le_rfl⟩)
    pairwise isFirst isSecond).1

/-- **The order of a topic.**  In every run of the writer whose batches read a clock that
does not go back, the messages of a topic are stored in the order of their admission
with `created_at` values that do not decrease, and `claim_batch_for_topic` hands them
out for the first time in that order, except among messages with equal `created_at`. -/
theorem topic_order (limits : Limits) (db : Database) (order : ShardIndex → List String)
    (initial final : Writer) (events : List WriterEvent) (topic : String) (log : TopicLog)
    (started : Writer.start limits db order = some initial)
    (ran : replayLogged limits topic initial events = some (final, log))
    (clock : log.readings.Pairwise (· ≤ ·)) :
    (log.stored.map fun item => item.1.receipt).Sublist (final.admitted topic) ∧
      (log.stored.map Prod.snd).Pairwise (· ≤ ·) ∧
      (∀ item ∈ log.stored,
        ∀ row ∈ (final.db.messages (.shard (topicShard topic))).rows,
          row.id = item.1.id → row.createdAt = item.2) ∧
      ∀ earlier later, [earlier, later].Sublist log.claimed →
        [later.id, earlier.id].Sublist ((final.admitted topic).map Receipt.id) →
          earlier.createdAt = later.createdAt := by
  have ordered := ordered_replay started ran
  refine ⟨ordered.stored_sublist, clock.sublist ordered.timed, ?_, ?_⟩
  · intro item member row listed same
    exact (ordered.tracked item member row listed same).createdAt
  · intro earlier later claims reversed
    have handed := ordered.handed clock
    have le := List.pairwise_iff_forall_sublist.mp handed.sorted claims
    obtain ⟨first, isFirst, firstId, firstAt⟩ :=
      handed.origin earlier (claims.subset (.head _))
    obtain ⟨second, isSecond, secondId, secondAt⟩ :=
      handed.origin later (claims.subset (.tail _ (.head _)))
    rw [← firstId, ← secondId] at reversed
    have ge := ordered.createdAt_le clock second isSecond first isFirst reversed
    rw [← firstAt, ← secondAt] at ge
    exact le_antisymm le ge

/-- Two messages of a topic with one of another topic between them, in two batches of
which the first fails once; two claims take them. -/
def publishedInTurn : List WriterEvent :=
  [.publish none "jobs" [104] "{}" "u1", .accept 0,
    .publish none "z" [105] "{}" "u2", .accept 1,
    .publish none "jobs" [106] "{}" "u3", .accept 2,
    .receive 13, .receive 13, .close 13,
    .persist 13 [5, 5] { fails := true }, .persist 13 [6, 7] {},
    .receive 13, .close 13, .persist 13 [9] {},
    .other (.sql (.update (.shard 13) (.claimBatch "l1" 99 10 "jobs" 1))) { order := ["s13-u1"] },
    .other (.sql (.update (.shard 13) (.claimBatch "l2" 99 11 "jobs" 8))) { order := ["s13-u3"] }]

theorem topic_order_publishedInTurn : ∃ initial final log,
    Writer.start (Limits.perShard 64 2) Database.empty (fun _ => []) = some initial ∧
      replayLogged (Limits.perShard 64 2) "jobs" initial publishedInTurn = some (final, log) ∧
      log.readings = [5, 5, 6, 7, 9] ∧
      log.claimed.map ClaimedMessage.id = ["s13-u1", "s13-u3"] ∧
      (log.stored.map fun item => item.1.receipt).Sublist (final.admitted "jobs") ∧
      (log.stored.map Prod.snd).Pairwise (· ≤ ·) := by
  obtain ⟨initial, ⟨final, log⟩, started, ran, readings, claimed⟩ : ∃ initial reached,
      Writer.start (Limits.perShard 64 2) Database.empty (fun _ => []) = some initial ∧
        replayLogged (Limits.perShard 64 2) "jobs" initial publishedInTurn = some reached ∧
        reached.2.readings = [5, 5, 6, 7, 9] ∧
        reached.2.claimed.map ClaimedMessage.id = ["s13-u1", "s13-u3"] :=
    exists_run_of_check (by decide +kernel)
  have clock : log.readings.Pairwise (· ≤ ·) := by
    rw [readings]
    decide
  obtain ⟨inOrder, instants, _, _⟩ := topic_order _ _ _ _ _ _ _ _ started ran clock
  exact ⟨initial, final, log, started, ran, readings, claimed, inOrder, instants⟩

end CanglingBroker
