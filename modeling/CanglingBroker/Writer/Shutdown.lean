import CanglingBroker.Writer.Effects

/-!
# Shutting the queue writer down

`Shutdown` is a command on the same channel as the messages.  A task leaves its
loop at it, in either of the two places where it takes commands, and what is
still on the channel is dropped.  A publish whose message is admitted behind the
`Shutdown` has been told that it is accepted, and its message is lost.
-/

namespace CanglingBroker

open Foundation

/-- Nothing to store is behind a `Shutdown` on the channel. -/
def NothingBehind : List WriteCommand → Prop
  | [] => True
  | .shutdown _ :: rest => rest.filterMap WriteCommand.input? = []
  | _ :: rest => NothingBehind rest

theorem nothingBehind_of_noInput : ∀ {queue : List WriteCommand},
    queue.filterMap WriteCommand.input? = [] → NothingBehind queue
  | [], _ => trivial
  | .enqueue input :: rest, noInput => by
    simp at noInput
  | .delivered command :: rest, noInput =>
    show NothingBehind rest from nothingBehind_of_noInput noInput
  | .shutdown caller :: rest, noInput => noInput

theorem nothingBehind_tail {command : WriteCommand} {rest : List WriteCommand}
    (clean : NothingBehind (command :: rest)) : NothingBehind rest := by
  cases command with
  | enqueue => exact clean
  | delivered => exact clean
  | shutdown => exact nothingBehind_of_noInput clean

theorem nothingBehind_append : ∀ {queue extra : List WriteCommand}, NothingBehind queue →
    extra.filterMap WriteCommand.input? = [] → NothingBehind (queue ++ extra)
  | [], _, _, noInput => nothingBehind_of_noInput noInput
  | .enqueue input :: rest, extra, clean, noInput =>
    show NothingBehind (rest ++ extra) from nothingBehind_append clean noInput
  | .delivered command :: rest, extra, clean, noInput =>
    show NothingBehind (rest ++ extra) from nothingBehind_append clean noInput
  | .shutdown caller :: rest, extra, clean, noInput => by
    have absent : rest.filterMap WriteCommand.input? = [] := clean
    change (rest ++ extra).filterMap WriteCommand.input? = []
    rw [List.filterMap_append, absent, noInput]
    rfl

theorem nothingBehind_of_noShutdown :
    ∀ {queue : List WriteCommand}, (∀ caller, .shutdown caller ∉ queue) → NothingBehind queue
  | [], _ => trivial
  | .enqueue _ :: rest, absent =>
    show NothingBehind rest from
      nothingBehind_of_noShutdown fun caller member =>
        absent caller (.tail _ member)
  | .delivered _ :: rest, absent =>
    show NothingBehind rest from
      nothingBehind_of_noShutdown fun caller member =>
        absent caller (.tail _ member)
  | .shutdown caller :: _, absent => absurd (.head _) (absent caller)

namespace WriterShard

/-- A `Shutdown` has been admitted to the channel. -/
def ShuttingDown (shard : WriterShard) : Prop :=
  (∃ caller, .shutdown caller ∈ shard.queue) ∨ shard.phase.Stopping

/-- What would be lost if the task left now is nothing. -/
structure Drains (shard : WriterShard) : Prop where
  behind : NothingBehind shard.queue
  stopping : shard.phase.Stopping → shard.queued = []
  closed : shard.closed = true → shard.unstored = []

variable {current next : WriterShard}

/-- A shard that has the same messages to store, and stops or is closed only if it was. -/
theorem drains_of_queued (drains : current.Drains) (behind : NothingBehind next.queue)
    (queued : next.queued = current.queued) (batch : next.phase.batch = current.phase.batch)
    (stopping : next.phase.Stopping → current.phase.Stopping)
    (closed : next.closed = true → current.closed = true) :
    next.Drains ∧ next.unstored = current.unstored := by
  have same : next.unstored = current.unstored := by rw [unstored, unstored, queued, batch]
  refine ⟨⟨behind, fun still => ?_, fun exited => ?_⟩, same⟩
  · rw [queued]
    exact drains.stopping (stopping still)
  · rw [same]
    exact drains.closed (closed exited)

theorem drains_of_eq (drains : current.Drains)
    (queue : next.queue = current.queue) (phase : next.phase = current.phase) :
    next.Drains ∧ next.unstored = current.unstored := by
  refine drains_of_queued drains (queue ▸ drains.behind) (queued_of_eq queue) ?_ ?_ ?_
  · rw [phase]
  · rw [phase]
    exact id
  · rw [closed, closed, phase]
    exact id

theorem unstored_eq_of_move (drains : current.Drains) (move : ShardMove current next) :
    next.unstored = current.unstored := by
  rcases unstored_of_move move with kept | exit
  · exact kept
  cases move with
  | took _ _ _ _ _ _ _ isOpen | stopped _ _ _ _ _ isOpen | regrouped _ _ _ isOpen =>
    subst exit
    cases isOpen
  | left _ batch reason =>
    have empty : current.queued = [] := by
      rcases reason with none | ⟨caller, rest, queue⟩ | stopping
      · rw [queued, none]
        rfl
      · have behind := drains.behind
        rw [queue] at behind
        rw [queued, queue]
        exact behind
      · exact drains.stopping stopping
    rw [exit, unstored, unstored, empty, batch]
    rfl

/-- A move of the task keeps the shard safe to leave. -/
theorem drains_move (drains : current.Drains) (move : ShardMove current next) : next.Drains := by
  have behind := drains.behind
  cases move with
  | took _ _ queue _ left _ goesOn isOpen =>
    rw [queue] at behind
    refine ⟨left ▸ nothingBehind_tail behind, fun stopping => absurd stopping goesOn, ?_⟩
    exact fun exited => absurd (isOpen.symm.trans exited) Bool.false_ne_true
  | stopped _ rest queue left _ isOpen =>
    rw [queue] at behind
    have noInput : rest.filterMap WriteCommand.input? = [] := behind
    refine ⟨left ▸ nothingBehind_of_noInput noInput, fun _ => ?_, ?_⟩
    · rw [queued, left]
      exact noInput
    · exact fun exited => absurd (isOpen.symm.trans exited) Bool.false_ne_true
  | regrouped queue batch stopping isOpen =>
    exact (drains_of_queued drains (queue ▸ behind) (queued_of_eq queue) batch stopping
      fun exited => absurd (isOpen.symm.trans exited) Bool.false_ne_true).1
  | left exit =>
    subst exit
    exact ⟨trivial, fun stopping => stopping.elim, fun _ => rfl⟩

end WriterShard

namespace Writer

/-- No publish is admitted to a channel after a `Shutdown`. -/
def AdmitsBeforeShutdown (writer : Writer) : WriterEvent → Prop
  | .accept call =>
    ∀ input, writer.calls call = some (.publish input) →
      ¬ (writer.shards (topicShard input.topic)).ShuttingDown
  | _ => True

/-- Every accepted message is stored or still will be. -/
structure Drains (writer : Writer) : Prop where
  shards : ∀ shard, (writer.shards shard).Drains
  safe :
    ∀ receipt ∈ writer.receipts, receipt.duplicate = false → receipt.id ∈ writer.committed ∨
        ∃ shard, ∃ input ∈ (writer.shards shard).unstored, input.id = receipt.id

variable {before after : Writer}

/-- What was to be stored still is, or it is committed. -/
theorem Drains.of_keeps (drains : before.Drains) (clean : ∀ shard, (after.shards shard).Drains)
    (keeps :
      ∀ shard, ∀ input ∈ (before.shards shard).unstored,
        input.id ∈ after.committed ∨ input ∈ (after.shards shard).unstored)
    (safe :
      ∀ receipt ∈ after.receipts, receipt.duplicate = false →
        receipt ∈ before.receipts ∨ receipt.id ∈ after.committed ∨
          ∃ shard, ∃ input ∈ (after.shards shard).unstored, input.id = receipt.id)
    (committed : before.committed ⊆ after.committed) : after.Drains := by
  refine ⟨clean, fun receipt member accepted => ?_⟩
  rcases safe receipt member accepted with older | known
  · rcases drains.safe receipt older accepted with had | ⟨shard, input, unstored, sameId⟩
    · exact .inl (committed had)
    · rw [← sameId]
      exact (keeps shard input unstored).imp_right fun still => ⟨shard, input, still, rfl⟩
  · exact known

theorem Drains.of_unstored (drains : before.Drains)
    (same :
      ∀ shard, (after.shards shard).Drains ∧
        (after.shards shard).unstored = (before.shards shard).unstored)
    (safe :
      ∀ receipt ∈ after.receipts, receipt.duplicate = false →
        receipt ∈ before.receipts ∨ receipt.id ∈ after.committed)
    (committed : before.committed ⊆ after.committed) : after.Drains :=
  drains.of_keeps (fun shard => (same shard).1)
    (fun shard _ member => .inr ((same shard).2 ▸ member))
    (fun receipt member accepted => (safe receipt member accepted).imp_right .inl) committed

theorem Drains.of_logs (drains : before.Drains)
    (same :
      ∀ shard, (after.shards shard).Drains ∧
        (after.shards shard).unstored = (before.shards shard).unstored)
    (logs : before.SameLogs after) : after.Drains :=
  drains.of_unstored same (fun _ member _ => .inl (logs.receipts ▸ member))
    (logs.committed ▸ List.Subset.refl _)

theorem Drains.same_of_sameShards (drains : before.Drains) (same : before.SameShards after)
    (shard : ShardIndex) :
    (after.shards shard).Drains ∧ (after.shards shard).unstored = (before.shards shard).unstored :=
  WriterShard.drains_of_eq (drains.shards shard) (same shard).1 (same shard).2

theorem Drains.setShard {shard : ShardIndex} {next : WriterShard} (drains : before.Drains)
    (shards : after.shards = Function.update before.shards shard next) (clean : next.Drains)
    (keeps :
      ∀ input ∈ (before.shards shard).unstored, input ∈ next.unstored ∨ input.id ∈ after.committed)
    (safe :
      ∀ receipt ∈ after.receipts, receipt.duplicate = false →
        receipt ∈ before.receipts ∨ ∃ input ∈ next.unstored, input.id = receipt.id)
    (committed : before.committed ⊆ after.committed) : after.Drains := by
  refine drains.of_keeps (fun other => ?_) (fun other input member => ?_)
    (fun receipt member accepted => (safe receipt member accepted).imp_right ?_) committed
  · rw [shards, Function.update_apply]
    split
    · exact clean
    · exact drains.shards other
  · rw [shards, Function.update_apply]
    split
    · next here =>
      subst here
      exact (keeps input member).symm
    · exact .inr member
  · rintro ⟨input, new, sameId⟩
    refine .inr ⟨shard, input, ?_, sameId⟩
    rw [shards, Function.update_self]
    exact new

theorem drains_accept {shard : WriterShard} (input : EnqueueInput) (isOpen : shard.closed = false)
    (notYet : ¬ shard.ShuttingDown) :
    ({ shard with queue := shard.queue ++ [.enqueue input] } : WriterShard).Drains := by
  obtain ⟨noShutdown, goesOn⟩ := not_or.mp notYet
  refine ⟨?_, fun stopping => absurd stopping goesOn, fun exited => ?_⟩
  · refine nothingBehind_of_noShutdown fun caller member => ?_
    rcases List.mem_append.mp member with old | new
    · exact noShutdown ⟨caller, old⟩
    · cases List.mem_singleton.mp new
  · have closed : shard.closed = true := exited
    rw [isOpen] at closed
    cases closed

/-- After a batch a task has to store what is on its channel. -/
theorem unstored_turnToAcks {shard : WriterShard} {acks : List DeliveredCommand}
    {stop : Option Nat} {batch : List EnqueueInput} (drains : shard.Drains)
    (phase : shard.phase = .persisting batch acks stop) :
    (shard.turnToAcks acks stop).unstored = shard.queued := by
  rcases turnToAcks_cases shard acks stop with ⟨exits, stopped⟩ | ⟨queue, noBatch, _, _⟩
  · have empty : shard.queued = [] := by
      refine drains.stopping ?_
      rw [phase]
      exact stopped
    rw [exits, empty]
    rfl
  · rw [WriterShard.unstored, WriterShard.queued_of_eq queue, noBatch, List.nil_append]

theorem drains_step {event : WriterEvent} (drains : before.Drains)
    (timely : before.AdmitsBeforeShutdown event) (effect : WriterEffect before after event) :
    after.Drains := by
  cases effect with
  | offered _ _ _ _ _ _ _ shards _ logs | withdrawn _ _ _ _ _ _ shards _ logs =>
    exact drains.of_logs (drains.same_of_sameShards shards) logs
  | repeated _ _ _ _ _ _ _ _ _ _ shards _ receipts _ committed =>
    refine drains.of_unstored (drains.same_of_sameShards shards) ?_ (committed ▸ .refl _)
    grind
  | admitted _ input waiting _ shards isOpen _ receipts _ committed =>
    refine drains.setShard shards (drains_accept input isOpen (timely input waiting))
      (fun other member => .inl ?_) (fun receipt member _ => ?_) (committed ▸ .refl _)
    · simp only [WriterShard.unstored, WriterShard.queued, List.filterMap_append,
        List.mem_append] at member ⊢
      tauto
    · rw [receipts] at member
      rcases List.mem_cons.mp member with rfl | older
      · exact .inr ⟨input, by simp [WriterShard.unstored, WriterShard.queued], rfl⟩
      · exact .inl older
  | settled _ _ queues _ logs =>
    refine drains.of_logs (fun shard => ?_) logs
    obtain ⟨phase, extra, noInput, queue⟩ := queues shard
    refine WriterShard.drains_of_queued (drains.shards shard) ?_ ?_ (by rw [phase])
      (by rw [phase]; exact id) (by rw [WriterShard.closed, WriterShard.closed, phase]; exact id)
    · rw [queue]
      exact nothingBehind_append (drains.shards shard).behind noInput
    · rw [WriterShard.queued, queue, List.filterMap_append, noInput, List.append_nil]
      rfl
  | moved _ shard _ same move =>
    have kept := WriterShard.unstored_eq_of_move (drains.shards shard) move
    subst same
    exact drains.setShard rfl (WriterShard.drains_move (drains.shards shard) move)
      (fun _ member => .inl (kept ▸ member)) (fun _ member _ => .inl member)
      (List.Subset.refl _)
  | batchStored _ shard enqueues acks stop _ _ _ phase _ _ _ shards _ receipts _ committed =>
    have batch : (before.shards shard).phase.batch = enqueues := by
      rw [phase]
      rfl
    refine drains.setShard shards ?_ (fun input member => ?_)
      (fun receipt member _ => .inl (receipts ▸ member))
      (committed ▸ List.subset_append_right _ _)
    · rcases turnToAcks_cases (before.shards shard) acks stop with
        ⟨exits, _⟩ | ⟨queue, noBatch, stopping, isOpen⟩
      · rw [exits]
        exact ⟨trivial, fun stopping => stopping.elim, fun _ => rfl⟩
      · refine ⟨queue ▸ (drains.shards shard).behind, fun still => ?_, fun exited => ?_⟩
        · rw [WriterShard.queued_of_eq queue]
          refine (drains.shards shard).stopping ?_
          rw [phase]
          exact stopping still
        · rw [isOpen] at exited
          cases exited
    · rw [WriterShard.unstored, batch] at member
      rcases List.mem_append.mp member with inBatch | waiting
      · rw [committed]
        exact .inr (List.mem_append_left _ (List.mem_map_of_mem inBatch))
      · exact .inl (unstored_turnToAcks (drains.shards shard) phase ▸ waiting)
  | storedDirectly _ _ _ _ _ _ _ _ _ _ _ _ shards _ receipts _ committed =>
    refine drains.of_unstored (drains.same_of_sameShards shards) ?_ ?_
    · grind
    · rw [committed]
      split
      · exact List.Subset.refl _
      · exact List.subset_cons_self _ _
  | acted _ _ _ _ _ _ _ shards _ logs =>
    refine drains.of_logs (fun shard => ?_) logs
    obtain ⟨queue, batch, stopping, closed⟩ := shards shard
    exact WriterShard.drains_of_queued (drains.shards shard)
      (queue ▸ (drains.shards shard).behind) (WriterShard.queued_of_eq queue) batch stopping.mp
      fun exited => closed ▸ exited

/-- A message is to be stored by the task of its topic's shard. -/
def Placed (writer : Writer) : Prop :=
  ∀ shard, ∀ input ∈ (writer.shards shard).unstored, topicShard input.topic = shard

theorem placed_replay {limits : Limits} {db : Database} {order : ShardIndex → List String}
    {initial final : Writer} {events : List WriterEvent}
    (started : start limits db order = some initial)
    (ran : initial.replay limits events = some final) : final.Placed := by
  have initially : initial.Placed := by
    unfold start at started
    split at started <;> cases started
    rintro shard input ⟨⟩
  refine replay_invariant ?_ started initially (along_of_mem fun _ _ => trivial) ran
  intro before after event _ placed _ effect shard input member
  exact (mem_unstored_step effect member).elim (placed shard input) (·.1)

/-- For what a step logs as committed the shard of its topic has a row after the step: its
own, or the one its key was used for before. -/
def CommitStores (before after : Writer) : Prop :=
  ∀ id ∈ after.committed, id ∉ before.committed → ∃ input : EnqueueInput, input.id = id ∧
    ∃ row ∈ (after.db.messages (.shard (topicShard input.topic))).rows,
      (∃ now, row = input.row now) ∨
        (input ∈ (before.shards (topicShard input.topic)).phase.batch ∧
          ∃ key, input.idempotencyKey = some key ∧ row.idempotencyKey = some key)

theorem commitStores_of_same (committed : after.committed = before.committed) :
    CommitStores before after := by
  intro id member new
  rw [committed] at member
  exact absurd member new

theorem commitStores_of_effect {event : WriterEvent} (placed : before.Placed)
    (effect : WriterEffect before after event) : CommitStores before after := by
  cases effect with
  | offered _ _ _ _ _ _ _ _ _ logs | withdrawn _ _ _ _ _ _ _ _ logs | settled _ _ _ _ logs
  | acted _ _ _ _ _ _ _ _ _ logs => exact commitStores_of_same logs.committed
  | repeated _ _ _ _ _ _ _ _ _ _ _ _ _ _ committed | admitted _ _ _ _ _ _ _ _ _ committed =>
    exact commitStores_of_same committed
  | moved _ _ _ same =>
    subst same
    exact commitStores_of_same rfl
  | batchStored _ shard enqueues _ _ times _ _ phase timed accepted _ _ messages _ _ committed =>
      intro id member new
      rw [committed] at member
      rcases List.mem_append.mp member with inBatch | old
      · obtain ⟨input, listed, rfl⟩ := List.mem_map.mp inBatch
        have timedInput : ∃ time, (input, time) ∈ enqueues.zip times := by
          rw [← List.map_fst_zip (Nat.le_of_eq timed.symm)] at listed
          obtain ⟨⟨_, time⟩, zipped, rfl⟩ := List.mem_map.mp listed
          exact ⟨time, zipped⟩
        obtain ⟨time, zipped⟩ := timedInput
        obtain ⟨row, stored, found⟩ := enqueueGroup_stored accepted _ zipped
        have inBatch : input ∈ (before.shards shard).phase.batch := by
          rw [phase]
          exact listed
        obtain rfl := placed shard input (List.mem_append_left _ inBatch)
        refine ⟨input, rfl, row, ?_, found.imp (⟨time, ·⟩) (⟨inBatch, ·⟩)⟩
        rw [messages, Function.update_self]
        exact stored
      · exact absurd old new
  | storedDirectly key topic payload attributes uuid now _ _ _ _ accepted _ _ messages _ _
      committed =>
      intro other member new
      rw [committed] at member
      rcases enqueueItem_cases accepted with ⟨_, result, rows⟩ | ⟨_, _, _, _, _, result, _⟩
      · cases result
        rcases List.mem_cons.mp member with rfl | old
        · refine ⟨message key topic payload attributes uuid, rfl, _, ?_, .inl ⟨now, rfl⟩⟩
          change _ ∈ (after.db.messages (.shard (topicShard topic))).rows
          rw [messages, Function.update_self, rows]
          exact List.mem_append_right _ (.head _)
        · exact absurd old new
      · cases result
        exact absurd member new

theorem drains_start {limits : Limits} {db : Database} {order : ShardIndex → List String}
    {writer : Writer} (started : start limits db order = some writer) :
    writer.Drains := by
  unfold start at started
  split at started <;> cases started
  refine ⟨fun shard => ⟨trivial, fun stopping => stopping.elim, fun _ => rfl⟩, ?_⟩
  intro receipt member
  cases member

/-- In every run that admits no publish to a channel after a `Shutdown`, when all
tasks have returned, every publish that was accepted as new has been committed;
and what is committed is stored, or was a duplicate of what is. -/
theorem shutdown_drains (limits : Limits) (db : Database) (order : ShardIndex → List String)
    (initial final : Writer) (events : List WriterEvent)
    (started : start limits db order = some initial)
    (along : Along (step limits) AdmitsBeforeShutdown initial events)
    (ran : initial.replay limits events = some final)
    (exited : ∀ shard, (final.shards shard).closed = true) :
    (∀ receipt ∈ final.receipts, receipt.duplicate = false → receipt.id ∈ final.committed) ∧
      ∀ front event back before after, events = front ++ event :: back →
        initial.replay limits front = some before →
          before.step limits event = some after → CommitStores before after := by
  have drains : final.Drains :=
    replay_invariant (fun _ held met effect => drains_step held met effect)
      started (drains_start started) along ran
  constructor
  · intro receipt member accepted
    rcases drains.safe receipt member accepted with stored | ⟨shard, input, left, _⟩
    · exact stored
    · rw [(drains.shards shard).closed (exited shard)] at left
      cases left
  · intro front event back before after _ reached stepped
    exact commitStores_of_effect (placed_replay started reached)
      (step_effect (wellFormed_replay started reached) stepped)

/-- One message is published and stored, then the writer is shut down. -/
def drainsInOrder : List WriterEvent :=
  [.publish (some "k") "jobs" [104, 105] "{}" "u1", .accept 0, .receive 13, .close 13,
    .persist 13 [5] {}, .shutdown] ++
  List.replicate 16 (.accept 1) ++ allShards.map .receive

/-- The call is a publish only if no `Shutdown` is on its channel. -/
def admitsBeforeShutdownCheck (writer : Writer) : WriterEvent → Bool
  | .accept call =>
    match writer.calls call with
    | some (.publish input) =>
      ((writer.shards (topicShard input.topic)).queue.all fun command =>
          match command with
          | .shutdown _ => false
          | _ => true) &&
        match (writer.shards (topicShard input.topic)).phase with
        | .persisting _ _ stop => stop.isNone
        | .acknowledging _ stop _ => stop.isNone
        | _ => true
    | _ => true
  | _ => true

theorem admitsBeforeShutdown_of_check (writer : Writer) (event : WriterEvent)
    (checked : admitsBeforeShutdownCheck writer event = true) :
    writer.AdmitsBeforeShutdown event := by
  cases event with
  | accept =>
    intro input waiting
    simp only [admitsBeforeShutdownCheck, waiting, Bool.and_eq_true, List.all_eq_true] at checked
    rintro (⟨caller, member⟩ | stopping)
    · exact Bool.noConfusion (checked.1 _ member)
    · have goesOn := checked.2
      unfold WriterPhase.Stopping at stopping
      split at stopping <;> simp_all
  | _ => exact trivial

theorem shutdown_drains_inOrder : ∃ initial final,
    start (Limits.perShard 16 1) Database.empty (fun _ => []) = some initial ∧
      initial.replay (Limits.perShard 16 1) drainsInOrder = some final ∧
      (∃ receipt ∈ final.receipts, receipt.duplicate = false) ∧
      ∀ receipt ∈ final.receipts, receipt.duplicate = false → receipt.id ∈ final.committed := by
  obtain ⟨initial, final, started, ran, timely, accepted, closed⟩ : ∃ initial final,
      start (Limits.perShard 16 1) Database.empty (fun _ => []) = some initial ∧
        initial.replay (Limits.perShard 16 1) drainsInOrder = some final ∧
        checkAlong (step (Limits.perShard 16 1)) admitsBeforeShutdownCheck initial
          drainsInOrder = true ∧
        (∃ receipt ∈ final.receipts, receipt.duplicate = false) ∧
        ∀ shard, (final.shards shard).closed = true :=
    exists_run_of_check (by decide +kernel)
  refine ⟨initial, final, started, ran, accepted, ?_⟩
  exact (shutdown_drains _ _ _ _ _ _ started
    (along_of_check admitsBeforeShutdown_of_check timely) ran closed).1

/-- A publish waits while the `Shutdown`s are admitted, and is admitted then. -/
def admittedBehind : List WriterEvent :=
  [.publish (some "k") "jobs" [104, 105] "{}" "u1", .shutdown] ++
  List.replicate 16 (.accept 1) ++ [.accept 0] ++ allShards.map .receive

/-- All tasks have returned, and an accepted message was never stored. -/
theorem shutdown_loses : ∃ initial final,
    start (Limits.perShard 32 1) Database.empty (fun _ => []) = some initial ∧
      initial.replay (Limits.perShard 32 1) admittedBehind = some final ∧
      (∀ shard, (final.shards shard).closed = true) ∧
      ∃ receipt ∈ final.receipts, receipt.duplicate = false ∧ receipt.id ∉ final.committed ∧
        ∀ shard, (final.db.messages (.shard shard)).rows = [] :=
  exists_run_of_check (by decide +kernel)

end Writer

end CanglingBroker
