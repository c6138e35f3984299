import CanglingBroker.Database.Lease

/-!
# The life of a message

From its acceptance on a message keeps its identifier, topic, payload,
attributes, creation time and idempotency key.  `LifeStep` lists what one
action can do to its delivery columns, with the calls that do it; the main
theorem proves that nothing else happens in any run.
-/

namespace CanglingBroker

open Foundation

/-- The call may put the claimed row back in the queue. -/
def Call.PutsBack (call : Call) (row : MessageRow) : Prop :=
  match call with
  | .release id lease => row.held id lease = true
  | .failed id lease _ maxAttempts => row.held id lease = true ∧ row.attempts < maxAttempts
  | .reclaimStale => True
  | .connect => True
  | _ => False

/-- The call may end the claimed row with the status. -/
def Call.Ends (call : Call) (row : MessageRow) : Status → Prop
  | .delivered => ∃ lease, row.held row.id lease = true ∧ (row.id, lease) ∈ call.acknowledged
  | .failed =>
    ∃ lease error maxAttempts, row.held row.id lease = true ∧
        call = .failed row.id lease error maxAttempts ∧
        maxAttempts ≤ row.attempts
  | .dropped =>
    ∃ lease error, row.held row.id lease = true ∧ call = .dropClaimed row.id lease error
  | _ => False

/-- What an action of a call can do to a row's status, lease and attempts. -/
inductive LifeStep (call : Call) (row moved : MessageRow) : Prop
  | stays (status : moved.status = row.status) (lease : moved.lease = row.lease)
      (attempts : moved.attempts = row.attempts)
  | claimed (claims : call.Claims) (was : row.status = .pending)
      (status : moved.status = .processing) (lease : moved.lease.isSome = true)
      (attempts : moved.attempts = row.attempts + 1)
  | putBack (puts : call.PutsBack row) (was : row.status = .processing)
      (status : moved.status = .pending) (lease : moved.lease = none)
      (attempts : moved.attempts = row.attempts)
  | ended (ends : call.Ends row moved.status) (was : row.status = .processing)
      (lease : moved.lease = none) (attempts : moved.attempts = row.attempts)
  | droppedUnclaimed (drops : call = .dropPending row.topic)
      (was : row.status = .pending) (status : moved.status = .dropped)
      (lease : moved.lease = none) (attempts : moved.attempts = row.attempts)

namespace LifeStep

variable {call : Call} {row moved : MessageRow}

theorem status_of_final (step : LifeStep call row moved) (final : row.status.Final) :
    moved.status = row.status := by
  cases step with
  | stays status => exact status
  | claimed _ was | putBack _ was | ended _ was | droppedUnclaimed _ was =>
    rw [was] at final
    exact final.elim

end LifeStep

/-- Between the actions nothing changes the stored messages. -/
def Linked (initial : Database) : List Entry → Database → Prop
  | [], db => db.messages = initial.messages
  | entry :: older, db => db.messages = entry.after.messages ∧ Linked initial older entry.before

namespace Trace

variable {initial db : Database} {history : List Entry}

theorem linked (trace : Trace initial history db) : Linked initial history db := by
  induction trace with
  | start => exact rfl
  | @restart history db earlier ih =>
    cases history with
    | nil => exact ih
    | cons => exact ih
  | act _ _ _ _ ih => exact ⟨rfl, ih⟩

theorem lifeStep_of_fail (sound : initial.Sound) (trace : Trace initial history db) {call : Call}
    {thread : Nat} {store : Store} {row : MessageRow} {status : Status} {next : Nat}
    {error id lease : String} (listed : row ∈ (db.messages store).rows)
    (held : row.held id lease = true)
    (may :
      call.May (ownPath thread history) (.sql (.update store (.fail status next error id lease)))) :
    LifeStep call row ((Update.fail status next error id lease).set row) := by
  obtain ⟨read, maxAttempts, seen, rfl, rfl⟩ := may.2
  obtain ⟨reading, performed, _, asked⟩ := exists_performed_of_mem_ownPath seen
  have attempts := trace.attempts_of_read sound performed asked row listed held
  obtain ⟨rfl, carried, claimed⟩ := MessageRow.held_iff.mp held
  by_cases reached : read.attempts ≥ maxAttempts
  · refine .ended ?_ claimed rfl rfl
    simp only [Update.set, verdict, reached, if_true]
    exact ⟨lease, error, maxAttempts, held, rfl, by omega⟩
  · refine .putBack ⟨held, by omega⟩ claimed ?_ rfl rfl
    simp [Update.set, verdict, reached]

/-- Every move of a row is a step of its life. -/
theorem lifeStep (sound : initial.Sound) (trace : Trace initial history db) {call : Call}
    {thread : Nat} {request : Action} {store : Store} {row moved : MessageRow}
    (listed : row ∈ (db.messages store).rows) (may : call.May (ownPath thread history) request)
    (moves : Moves request store row moved) : LifeStep call row moved := by
  cases moves with
  | same => exact .stays rfl rfl rfl
  | delivered _ _ asked presented =>
    subst asked
    obtain ⟨⟨id, lease⟩, member, held⟩ := MessageRow.presented_iff.mp presented
    obtain ⟨rfl, carried, claimed⟩ := MessageRow.held_iff.mp held
    exact .ended ⟨lease, held, may.1.1 _ member⟩ claimed rfl rfl
  | updated statement _ asked matched =>
    subst asked
    have allowed : call.Updates store statement := may.1
    cases statement with
    | dropPending =>
      simp only [Update.guard, Bool.and_eq_true, decide_eq_true_eq] at matched
      obtain ⟨rfl, was⟩ := matched
      exact .droppedUnclaimed allowed.1 was rfl rfl rfl
    | dropClaimed error _ lease =>
      obtain ⟨rfl, carried, claimed⟩ := MessageRow.held_iff.mp matched
      exact .ended ⟨lease, error, matched, allowed.1⟩ claimed rfl rfl
    | reclaim =>
      simp only [Update.guard, Bool.and_eq_true, decide_eq_true_eq] at matched
      refine .putBack ?_ matched.1 rfl rfl rfl
      rw [allowed.1]
      exact trivial
    | claimBatch | claimOne =>
      simp only [Update.guard, Bool.and_eq_true, decide_eq_true_eq] at matched
      exact .claimed allowed.1 matched.2 rfl rfl rfl
    | release =>
      refine .putBack ?_ (MessageRow.held_iff.mp matched).2.2 rfl rfl rfl
      rw [allowed.1]
      exact matched
    | renew => exact .stays rfl rfl rfl
    | deliver => exact allowed.elim
    | fail => exact trace.lifeStep_of_fail sound listed matched may
    | recover =>
      have was : row.status = .processing := by
        simpa [Update.guard] using matched
      refine .putBack ?_ was rfl rfl rfl
      rw [show call = .connect from allowed]
      exact trivial

end Trace

/-- What one performed action did to the stored messages. -/
structure FollowsLife (entry : Entry) : Prop where
  kept :
    ∀ store, ∀ row ∈ (entry.before.messages store).rows,
      (∃ moved ∈ (entry.after.messages store).rows,
        moved.toMessage = row.toMessage ∧ LifeStep entry.call row moved ∧
          (row.status.Final → moved.status = row.status)) ∨
        entry.call.Removes
  arrived :
    ∀ store, ∀ moved ∈ (entry.after.messages store).rows,
      (∃ row ∈ (entry.before.messages store).rows,
        moved.toMessage = row.toMessage ∧ LifeStep entry.call row moved) ∨
        (entry.call.Enqueues ∧ moved.status = .pending ∧ moved.attempts = 0 ∧ moved.lease = none) ∨
        (entry.call = .connect ∧ moved.status ≠ .processing ∧ moved.lease = none)

namespace Trace

variable {initial : Database} {history : List Entry}

theorem followsLife_act (sound : initial.Sound) {entry : Entry}
    (act : Act initial history entry) : FollowsLife entry := by
  obtain ⟨earlier, effect, may⟩ := act
  constructor
  · intro store row listed
    rcases effect.rows_before listed with ⟨moved, member, moves⟩ | ⟨removal, asked⟩
    · have step := earlier.lifeStep sound listed may moves
      exact .inl ⟨moved, member, moves.toMessage_eq, step, step.status_of_final⟩
    · have allowed := may.1
      rw [asked] at allowed
      exact .inr allowed.1
  · intro store moved member
    rcases effect.rows_after member with ⟨row, listed, moves⟩ | created
    · exact
        .inl ⟨row, listed, moves.toMessage_eq, earlier.lifeStep sound listed may moves⟩
    · have unclaimed := earlier.created_unclaimed sound may created
      have allowed := may.1
      cases created with
      | enqueued _ _ asked =>
        rw [asked] at allowed
        exact .inr (.inl ⟨allowed.1, rfl, rfl, rfl⟩)
      | copied _ asked =>
        rw [asked] at allowed
        exact .inr (.inr ⟨allowed.1, unclaimed.1, unclaimed.2⟩)

theorem followsLife {db : Database} (sound : initial.Sound) (trace : Trace initial history db) :
    ∀ entry ∈ history, FollowsLife entry := by
  induction trace with
  | start =>
    intro entry member
    cases member
  | restart _ ih => exact ih
  | act _ earlier effect may ih =>
    intro entry member
    rcases List.mem_cons.mp member with rfl | older
    · exact followsLife_act sound ⟨earlier, effect, may⟩
    · exact ih entry older

end Trace

/-- The life cycle of messages.  In every run of the database's calls, restarts
included, a stored row is leased exactly while it is claimed, every action
treats every row as `FollowsLife` says, and nothing else changes a row. -/
theorem message_lifecycle (validJson : String → Bool) (initial : Database)
    (events : List BrokerEvent) (pool : Broker) (sound : initial.Sound)
    (scheduled : schedule validJson initial events = some pool) :
    (∀ index, ∀ row ∈ (pool.shared.messages (.shard index)).rows,
      row.lease.isSome = true ↔ row.status = .processing) ∧
      (∀ entry ∈ pool.history, FollowsLife entry) ∧
      Linked initial pool.history pool.shared := by
  have trace := trace_of_schedule scheduled
  exact ⟨(trace.disciplined sound).leased, trace.followsLife sound, trace.linked⟩

/-- One message is stored, claimed and acknowledged. -/
def acknowledgedOnce : List BrokerEvent :=
  [.spawn (.enqueueBatch [⟨"s13-m1", some "k", "jobs", [104, 105], "{}"⟩]),
    .advance 0 { clock := 5 }, .advance 0 {}, .advance 0 {},
    .spawn (.claimBatchForTopic "jobs" (30 * second) 10),
    .advance 1 { clock := 7 }, .advance 1 { uuid := "lease-1" },
    .advance 1 { order := ["s13-m1"] },
    .spawn (.delivered "s13-m1" "lease-1"),
    .advance 2 { clock := 9 }, .advance 2 {}, .advance 2 {}]

theorem message_lifecycle_acknowledgedOnce : ∃ pool,
    schedule (fun _ => true) Database.empty acknowledgedOnce = some pool ∧
      (∀ index, ∀ row ∈ (pool.shared.messages (.shard index)).rows,
        row.lease.isSome = true ↔ row.status = .processing) ∧
      (∀ entry ∈ pool.history, FollowsLife entry) ∧
      Linked Database.empty pool.history pool.shared := by
  have defined : (schedule (fun _ => true) Database.empty acknowledgedOnce).isSome = true := by
    decide +kernel
  obtain ⟨pool, scheduled⟩ := Option.isSome_iff_exists.mp defined
  exact ⟨pool, scheduled, message_lifecycle _ _ _ _ Database.sound_empty scheduled⟩

end CanglingBroker
