import CanglingBroker.Database.Trace
import CanglingBroker.Writer.Step

/-!
# What a step of the queue writer does

`WriterEffect` says once what a step does to the publishes in progress, the recent keys,
the channels, the batches, the stored messages and the logs.  Every invariant of the
writer is proved from it.
-/

namespace CanglingBroker

open Foundation

namespace Writer

structure SameLogs (before after : Writer) : Prop where
  receipts : after.receipts = before.receipts
  kept : after.kept = before.kept
  committed : after.committed = before.committed

def SameShards (before after : Writer) : Prop :=
  ∀ shard, (after.shards shard).queue = (before.shards shard).queue ∧
      (after.shards shard).phase = (before.shards shard).phase

def SameRecent (before after : Writer) : Prop :=
  ∀ shard, (after.shards shard).recent = (before.shards shard).recent

/-- The recent keys of the shard get the key of a publish, if it has one. -/
def Records (before after : Writer) (shard : ShardIndex) (id : String) : Option String → Prop
  | none => before.SameRecent after
  | some key =>
    ∃ recent, (before.shards shard).recent.insert key id = some recent ∧
      ∀ other, (after.shards other).recent =
        if other = shard then recent else (before.shards other).recent

def SameOffers (before after : Writer) : Prop :=
  ∀ call input, after.calls call = some (.publish input) ↔ before.calls call = some (.publish input)

/-- Numbers from `fresh` on are not in use. -/
def CallsBelow (writer : Writer) : Prop :=
  ∀ call, writer.fresh ≤ call → writer.calls call = none

end Writer

/-- What a task runs for its acknowledgements is the rest of a `delivered_batch`. -/
def WriterPhase.Tame : WriterPhase → Prop
  | .acknowledging acks _ program =>
    ∃ path, Program.Ensures
        (Call.deliveredBatch (acks.map fun ack => (ack.id, ack.lease))).May
        (fun _ _ => True) path program
  | _ => True

/-- What holds in every state that can be reached, whatever the scheduler does. -/
structure Writer.WellFormed (writer : Writer) : Prop where
  below : writer.CallsBelow
  tame : ∀ shard, (writer.shards shard).phase.Tame

/-- What a task can do with its channel and its batch, short of storing. -/
inductive ShardMove (current next : WriterShard) : Prop
  | took (command : WriteCommand) (rest : List WriteCommand)
      (queue : current.queue = command :: rest)
      (notShutdown : ∀ caller, command ≠ .shutdown caller)
      (left : next.queue = rest)
      (batch : next.phase.batch = current.phase.batch ++ command.input?.toList)
      (goesOn : ¬ next.phase.Stopping) (isOpen : next.closed = false)
  | stopped (caller : Nat) (rest : List WriteCommand)
      (queue : current.queue = .shutdown caller :: rest)
      (left : next.queue = rest)
      (batch : next.phase.batch = current.phase.batch)
      (isOpen : next.closed = false)
  | regrouped (queue : next.queue = current.queue)
      (batch : next.phase.batch = current.phase.batch)
      (stopping : next.phase.Stopping → current.phase.Stopping)
      (isOpen : next.closed = false)
  | left (exit : next = current.exit) (batch : current.phase.batch = [])
      (reason :
        current.queue = [] ∨ (∃ caller rest, current.queue = .shutdown caller :: rest) ∨
          current.phase.Stopping)

/-- The effect of a step, by what the invariants depend on. -/
inductive WriterEffect (before after : Writer) : WriterEvent → Prop
  | offered (key : Option String) (topic : String) (payload : List UInt8)
      (attributes uuid : String)
      (unseen :
        ∀ name, key.filter (· ≠ "") = some name →
          (before.shards (topicShard topic)).recent.get name = none)
      (calls :
        after.calls = Function.update before.calls before.fresh
            (some (.publish (Writer.message key topic payload attributes uuid))))
      (shards : before.SameShards after)
      (messages : after.db.messages = before.db.messages)
      (logs : before.SameLogs after)
      (recents :
        before.Records after (topicShard topic) (newMessageId topic uuid) (key.filter (· ≠ ""))) :
      WriterEffect before after (.publish key topic payload attributes uuid)
  | repeated (key : Option String) (topic : String) (payload : List UInt8)
      (attributes uuid name id : String)
      (keyed : key.filter (· ≠ "") = some name)
      (found : (before.shards (topicShard topic)).recent.get name = some id)
      (calls : after.calls = before.calls)
      (shards : before.SameShards after)
      (messages : after.db.messages = before.db.messages)
      (receipts : after.receipts = ⟨topic, some name, id, true, false⟩ :: before.receipts)
      (kept : after.kept = before.kept)
      (committed : after.committed = before.committed)
      (recents : before.SameRecent after) :
      WriterEffect before after (.publish key topic payload attributes uuid)
  | admitted (call : Nat) (input : EnqueueInput)
      (waiting : before.calls call = some (.publish input))
      (calls : after.calls = Function.update before.calls call none)
      (shards :
        after.shards = Function.update before.shards (topicShard input.topic)
            { before.shards (topicShard input.topic) with
              queue :=
                (before.shards (topicShard input.topic)).queue ++ [.enqueue input] })
      (isOpen : (before.shards (topicShard input.topic)).closed = false)
      (messages : after.db.messages = before.db.messages)
      (receipts :
        after.receipts = ⟨input.topic, input.idempotencyKey, input.id, false, false⟩ ::
            before.receipts)
      (kept :
        after.kept = Function.update before.kept (topicShard input.topic)
            (input.id :: before.kept (topicShard input.topic)))
      (committed : after.committed = before.committed) :
      WriterEffect before after (.accept call)
  | withdrawn (event : WriterEvent) (call : Nat) (input : EnqueueInput)
      (dropping : event = .refuse call ∨ event = .cancel call)
      (waiting : before.calls call = some (.publish input))
      (calls : after.calls = Function.update before.calls call none)
      (shards : before.SameShards after)
      (messages : after.db.messages = before.db.messages)
      (logs : before.SameLogs after)
      (recents :
        event = .cancel call ∧ before.SameRecent after ∨
          event = .refuse call ∧ (before.forget input).SameRecent after) :
      WriterEffect before after event
  | settled (event : WriterEvent) (offers : before.SameOffers after)
      (queues :
        ∀ shard, (after.shards shard).phase = (before.shards shard).phase ∧
          ∃ extra, extra.filterMap WriteCommand.input? = [] ∧
            (after.shards shard).queue = (before.shards shard).queue ++ extra)
      (messages : after.db.messages = before.db.messages)
      (logs : before.SameLogs after) (recents : before.SameRecent after) :
      WriterEffect before after event
  | moved (event : WriterEvent) (shard : ShardIndex) (next : WriterShard)
      (same : after = before.setShard shard next)
      (move : ShardMove (before.shards shard) next) (tame : next.phase.Tame)
      (recent : next.recent = (before.shards shard).recent) :
      WriterEffect before after event
  | batchStored (choice : Choice) (shard : ShardIndex)
      (enqueues : List EnqueueInput) (acks : List DeliveredCommand)
      (stop : Option Nat) (times : List Nat) (results : List (String × Bool))
      (table : MessageTable)
      (phase : (before.shards shard).phase = .persisting enqueues acks stop)
      (timed : times.length = enqueues.length)
      (accepted :
        enqueueGroup (enqueues.zip times) (before.db.messages (.shard shard)) =
          .ok (results, table))
      (calls : after.calls = before.calls)
      (shards :
        after.shards = Function.update before.shards shard
            ((before.shards shard).turnToAcks acks stop))
      (messages : after.db.messages = Function.update before.db.messages (.shard shard) table)
      (receipts : after.receipts = before.receipts)
      (kept : after.kept = before.kept)
      (committed : after.committed = enqueues.map (·.id) ++ before.committed) :
      WriterEffect before after (.persist shard times choice)
  | storedDirectly (key : Option String) (topic : String) (payload : List UInt8)
      (attributes uuid : String) (now : Nat) (fails : Bool) (id : String)
      (duplicate : Bool) (table : MessageTable)
      (accepted :
        enqueueItem (Writer.message key topic payload attributes uuid) now
            (before.db.messages (.shard (topicShard topic))) =
          .ok ((id, duplicate), table))
      (calls : after.calls = before.calls)
      (shards : before.SameShards after)
      (messages :
        after.db.messages = Function.update before.db.messages (.shard (topicShard topic)) table)
      (receipts :
        after.receipts = ⟨topic, key.filter (· ≠ ""), id, duplicate, true⟩ :: before.receipts)
      (kept : ∀ shard, before.kept shard ⊆ after.kept shard)
      (committed :
        after.committed = if duplicate then before.committed else id :: before.committed)
      (recents : before.SameRecent after) :
      WriterEffect before after (.store key topic payload attributes uuid now fails)
  | acted (event : WriterEvent) (request : Action) (answer : Reply request)
      (effect : Effect before.db request answer after.db)
      (storesNothing : request.storesMessages = false)
      (origin :
        (∃ choice, event = .other request choice) ∨
          ∀ store removal, request ≠ .sql (.remove store removal))
      (calls : after.calls = before.calls)
      (shards :
        ∀ shard, (after.shards shard).queue = (before.shards shard).queue ∧
          (after.shards shard).phase.batch = (before.shards shard).phase.batch ∧
          ((after.shards shard).phase.Stopping ↔ (before.shards shard).phase.Stopping) ∧
          (after.shards shard).closed = (before.shards shard).closed)
      (tame : ∀ shard, (after.shards shard).phase.Tame)
      (logs : before.SameLogs after) (recents : before.SameRecent after) :
      WriterEffect before after event

namespace Writer

variable {limits : Limits} {before after : Writer} (writer : Writer) {call : Nat}
  {shard : ShardIndex}

theorem SameShards.refl : writer.SameShards writer := fun _ => ⟨rfl, rfl⟩

theorem sameShards_recent (shard : ShardIndex) (recent : RecentIds) :
    writer.SameShards (writer.setShard shard { writer.shards shard with recent := recent }) := by
  intro other
  by_cases same : other = shard
  · subst same
    simp [setShard]
  · simp [setShard, same]

theorem recent_setShard (shard : ShardIndex) (value : WriterShard) (other : ShardIndex) :
    ((writer.setShard shard value).shards other).recent =
      if other = shard then value.recent else (writer.shards other).recent := by
  simp only [setShard, Function.update_apply]
  split <;> rfl

theorem sameRecent_of_update {value : WriterShard}
    (shards : after.shards = Function.update before.shards shard value)
    (same : value.recent = (before.shards shard).recent) : before.SameRecent after := by
  intro other
  rw [shards, Function.update_apply]
  split
  · next here => rw [here, same]
  · rfl

theorem draw_spec {writer drawn : Writer} {uuid : String} (done : writer.draw uuid = some drawn) :
    ∃ db, drawn = { writer with db := db } ∧ db.messages = writer.db.messages := by
  unfold draw at done
  split at done
  · cases done
  · next reply db performed =>
    cases done
    refine ⟨db, rfl, ?_⟩
    simp only [perform, Access.execute] at performed
    split at performed <;> cases performed
    rfl

theorem step_publish {key : Option String} {topic : String} {payload : List UInt8}
    {attributes uuid : String}
    (stepped : before.step limits (.publish key topic payload attributes uuid) = some after) :
    WriterEffect before after (.publish key topic payload attributes uuid) := by
  simp only [step] at stepped
  split at stepped
  · split at stepped
    · cases stepped
    · next drawn done =>
      obtain ⟨db, rfl, messages⟩ := draw_spec done
      unfold offer at stepped
      split at stepped
      · next unkeyed =>
        cases stepped
        have unkeyed : key.filter (· ≠ "") = none := unkeyed
        refine .offered key topic payload attributes uuid ?_ rfl (fun _ => ⟨rfl, rfl⟩)
          messages ⟨rfl, rfl, rfl⟩ ?_
        · rw [unkeyed]
          rintro name ⟨⟩
        · rw [unkeyed]
          exact fun _ => rfl
      · next name keyed =>
        have keyed : key.filter (· ≠ "") = some name := keyed
        dsimp only at stepped
        split at stepped
        · next id found =>
          cases stepped
          exact .repeated key topic payload attributes uuid name id keyed found rfl
            (fun _ => ⟨rfl, rfl⟩) messages rfl rfl rfl fun _ => rfl
        · next missed =>
          split at stepped
          · cases stepped
          · next recent inserted =>
            cases stepped
            refine .offered key topic payload attributes uuid ?_ rfl
              (sameShards_recent before (topicShard topic) recent) messages ⟨rfl, rfl, rfl⟩ ?_
            · intro other otherKeyed
              rw [keyed, Option.some.injEq] at otherKeyed
              exact otherKeyed ▸ missed
            · rw [keyed]
              exact ⟨recent, inserted, recent_setShard before (topicShard topic) _⟩
  · cases stepped

theorem settled_of_setCall {event : WriterEvent} {waited waiting : Option Waiting}
    (found : before.calls call = waited)
    (calls : after.calls = Function.update before.calls call waiting)
    (was : ∀ input, waited ≠ some (.publish input))
    (becomes : ∀ input, waiting ≠ some (.publish input)) (queues :
      ∀ shard, (after.shards shard).phase = (before.shards shard).phase ∧
        ∃ extra, extra.filterMap WriteCommand.input? = [] ∧
          (after.shards shard).queue = (before.shards shard).queue ++ extra)
    (messages : after.db.messages = before.db.messages) (logs : before.SameLogs after)
    (recents : before.SameRecent after) :
    WriterEffect before after event := by
  refine .settled event (fun other input => ?_) queues messages logs recents
  rw [calls, Function.update_apply]
  grind

theorem queues_refl (shard : ShardIndex) :
    (writer.shards shard).phase = (writer.shards shard).phase ∧
      ∃ extra, extra.filterMap WriteCommand.input? = [] ∧
        (writer.shards shard).queue = (writer.shards shard).queue ++ extra :=
  ⟨rfl, [], rfl, (List.append_nil _).symm⟩

theorem send_spec {command : WriteCommand} {sent : Writer}
    (done : before.send limits shard command = some sent) :
    (before.shards shard).closed = false ∧ sent = before.setShard shard
        { before.shards shard with
          queue := (before.shards shard).queue ++ [command] } := by
  unfold send at done
  simp only at done
  split at done
  · next room =>
    cases done
    exact ⟨room.1, rfl⟩
  · cases done

theorem queues_of_send {command : WriteCommand} (noInput : command.input? = none)
    (other : ShardIndex) :
    ((before.setShard shard
        { before.shards shard with
          queue := (before.shards shard).queue ++ [command] }).shards other).phase =
        (before.shards other).phase ∧
      ∃ extra, extra.filterMap WriteCommand.input? = [] ∧ ((before.setShard shard
          { before.shards shard with
            queue := (before.shards shard).queue ++ [command] }).shards
            other).queue =
          (before.shards other).queue ++ extra := by
  by_cases same : other = shard
  · subst same
    refine ⟨by simp [setShard], [command], by simp [noInput], by simp [setShard]⟩
  · refine ⟨by simp [setShard, same], [], rfl, by simp [setShard, same]⟩

theorem step_accept (stepped : before.step limits (.accept call) = some after) :
    WriterEffect before after (.accept call) := by
  simp only [step, accept] at stepped
  repeat' split at stepped
  all_goals cases stepped
  all_goals
    rename_i waiting _ _ done
    obtain ⟨isOpen, rfl⟩ := send_spec done
  · exact .admitted call _ waiting rfl rfl isOpen rfl rfl rfl rfl
  all_goals
    exact settled_of_setCall waiting rfl (fun _ => nofun) (fun _ => nofun) (queues_of_send rfl) rfl
      ⟨rfl, rfl, rfl⟩ (sameRecent_of_update rfl rfl)

theorem step_refuse (stepped : before.step limits (.refuse call) = some after) :
    WriterEffect before after (.refuse call) := by
  simp only [step, refuse] at stepped
  repeat' split at stepped
  all_goals cases stepped
  all_goals rename_i waiting _
  · refine .withdrawn _ call _ (.inl rfl) waiting ?_ ?_ ?_ ?_ (.inr ⟨rfl, fun _ => rfl⟩)
    all_goals
      unfold forget
      split
    all_goals first
      | exact ⟨rfl, rfl, rfl⟩
      | exact SameShards.refl before
      | exact sameShards_recent before _ _
      | rfl
  all_goals
    exact settled_of_setCall waiting rfl (fun _ => nofun) (fun _ => nofun) (queues_refl before) rfl
      ⟨rfl, rfl, rfl⟩ fun _ => rfl

theorem step_cancel (stepped : before.step limits (.cancel call) = some after) :
    WriterEffect before after (.cancel call) := by
  simp only [step, cancel] at stepped
  split at stepped
  · cases stepped
  · next waiting found =>
    cases stepped
    cases waiting with
    | publish input =>
      exact .withdrawn _ call input (.inr rfl) found rfl (SameShards.refl before) rfl
        ⟨rfl, rfl, rfl⟩ (.inl ⟨rfl, fun _ => rfl⟩)
    | deliver | response | shutdown =>
      exact settled_of_setCall found rfl (fun _ => nofun) (fun _ => nofun) (queues_refl before) rfl
        ⟨rfl, rfl, rfl⟩ fun _ => rfl

theorem step_conclude (stepped : before.step limits (.conclude call) = some after) :
    WriterEffect before after (.conclude call) := by
  simp only [step, conclude] at stepped
  repeat' split at stepped
  all_goals cases stepped
  all_goals
    rename_i waiting _
    exact settled_of_setCall waiting rfl (fun _ => nofun) (fun _ => nofun) (queues_refl before) rfl
      ⟨rfl, rfl, rfl⟩ fun _ => rfl

theorem settled_of_await {event : WriterEvent} (waiting : Waiting) (below : before.CallsBelow)
    (other : ∀ input, waiting ≠ .publish input) (stepped : after = before.await waiting) :
    WriterEffect before after event := by
  subst stepped
  exact settled_of_setCall (below before.fresh (Nat.le_refl _)) rfl (fun _ => nofun)
    (fun input same => other input (Option.some.inj same)) (queues_refl before) rfl
    ⟨rfl, rfl, rfl⟩ fun _ => rfl

theorem turnToAcks_cases (current : WriterShard) (acks : List DeliveredCommand)
    (stop : Option Nat) :
    (current.turnToAcks acks stop = current.exit ∧ stop.isSome = true) ∨
      ((current.turnToAcks acks stop).queue = current.queue ∧
        (current.turnToAcks acks stop).phase.batch = [] ∧
        ((current.turnToAcks acks stop).phase.Stopping → stop.isSome = true) ∧
        (current.turnToAcks acks stop).closed = false) := by
  unfold WriterShard.turnToAcks
  split
  · unfold WriterShard.finish
    split
    · exact .inr ⟨rfl, rfl, fun stopping => stopping.elim, rfl⟩
    · exact .inl ⟨rfl, rfl⟩
  · exact .inr ⟨rfl, rfl, fun stopping => stopping, rfl⟩

end Writer

namespace WriterShard

variable {limits : Limits} {current next : WriterShard} {senders : Bool}

theorem receive_move (received : current.receive limits senders = some next) :
    ShardMove current next := by
  unfold receive at received
  split at received
  · next phase queue =>
    split at received <;> cases received
    refine .left rfl ?_ (.inl queue)
    rw [phase]
    rfl
  · next caller rest phase queue =>
    cases received
    refine .left rfl ?_ (.inr (.inl ⟨caller, rest, queue⟩))
    rw [phase]
    rfl
  · next command rest notShutdown phase queue =>
    cases received
    refine .took command rest queue notShutdown rfl ?_ (fun stopping => stopping) rfl
    rw [phase]
    cases command <;> rfl
  · next batch caller rest phase queue =>
    split at received <;> cases received
    refine .stopped caller rest queue rfl ?_ rfl
    rw [phase]
    rfl
  · next batch command rest notShutdown phase queue =>
    split at received <;> cases received
    refine .took command rest queue notShutdown rfl ?_ (fun stopping => stopping) rfl
    rw [phase]
    simp only [WriterPhase.batch, List.filterMap_append]
    cases command <;> rfl
  · cases received

theorem receive_kept (received : current.receive limits senders = some next) :
    next.phase.Tame ∧ next.recent = current.recent := by
  unfold receive at received
  repeat' split at received
  all_goals cases received
  all_goals exact ⟨trivial, rfl⟩

theorem close_kept (closed : current.close = some next) :
    next.phase.Tame ∧ next.recent = current.recent := by
  unfold close at closed
  split at closed <;> cases closed
  exact ⟨trivial, rfl⟩

theorem finish_kept (current : WriterShard) (stop : Option Nat) :
    (current.finish stop).phase.Tame ∧ (current.finish stop).recent = current.recent := by
  cases stop <;> exact ⟨trivial, rfl⟩

theorem turnToAcks_kept (current : WriterShard) (acks : List DeliveredCommand) (stop : Option Nat) :
    (current.turnToAcks acks stop).phase.Tame ∧
      (current.turnToAcks acks stop).recent = current.recent := by
  unfold turnToAcks
  split
  · exact finish_kept current stop
  · exact ⟨⟨[], Db.behaves_deliveredBatch _ (fun _ member => member) [] trivial⟩, rfl⟩

theorem close_move (closed : current.close = some next) : ShardMove current next := by
  unfold close at closed
  split at closed
  · next batch phase =>
    cases closed
    refine .regrouped rfl ?_ (fun stopping => nomatch stopping) rfl
    rw [phase]
    rfl
  · cases closed

theorem finish_move {acks : List DeliveredCommand} {stop : Option Nat}
    {program : Program Action Reply (Except DbError (List Bool))}
    (phase : current.phase = .acknowledging acks stop program) :
    ShardMove current (current.finish stop) := by
  have noBatch : current.phase.batch = [] := by
    rw [phase]
    rfl
  unfold finish
  split
  · exact .regrouped rfl noBatch.symm (fun stopping => stopping.elim) rfl
  · refine .left rfl noBatch (.inr (.inr ?_))
    rw [phase]
    rfl

theorem turnToAcks_move {acks : List DeliveredCommand} {stop : Option Nat}
    (phase : current.phase = .persisting [] acks stop) :
    ShardMove current (current.turnToAcks acks stop) := by
  have noBatch : current.phase.batch = [] := by
    rw [phase]
    rfl
  have stops : stop.isSome = true → current.phase.Stopping := by
    rw [phase]
    exact fun stopped => stopped
  rcases Writer.turnToAcks_cases current acks stop with
    ⟨exits, stopped⟩ | ⟨queue, batch, stopping, isOpen⟩
  · exact .left exits noBatch (.inr (.inr (stops stopped)))
  · exact
      .regrouped queue (batch.trans noBatch.symm) (fun still => stops (stopping still)) isOpen

end WriterShard

theorem perform_enqueue {choice : Choice} {before after : Database} {store : Store}
    {group : List (EnqueueInput × Nat)} {answer : Reply (.sql (.enqueue store group))}
    (performed : perform choice before (.sql (.enqueue store group)) = some (answer, after)) :
    (∃ problem, answer = .error problem ∧ after.messages = before.messages) ∨
      ∃ results table, answer = .ok results ∧
        enqueueGroup group (before.messages store) = .ok (results, table) ∧
        after.messages = Function.update before.messages store table := by
  have effect := perform_effect performed
  cases effect with
  | enqueued _ _ results table accepted => exact .inr ⟨results, table, rfl, accepted, rfl⟩
  | refused _ problem => exact .inl ⟨problem, rfl, rfl⟩
  | other _ _ _ harmless => exact harmless.elim

namespace Writer

variable {limits : Limits} {before after : Writer} {event : WriterEvent} {db : Database}

theorem settled_of_db (messages : db.messages = before.db.messages) :
    WriterEffect before { before with db := db } event :=
  .settled event (fun _ _ => Iff.rfl) (queues_refl before) messages ⟨rfl, rfl, rfl⟩ fun _ => rfl

variable {choice : Choice}

theorem step_persist {shard : ShardIndex} {times : List Nat}
    (stepped : before.step limits (.persist shard times choice) = some after) :
    WriterEffect before after (.persist shard times choice) := by
  simp only [step, persist] at stepped
  split at stepped
  · next acks stop phase =>
    cases stepped
    exact .moved _ shard _ rfl (WriterShard.turnToAcks_move phase)
      (WriterShard.turnToAcks_kept _ acks stop).1 (WriterShard.turnToAcks_kept _ acks stop).2
  · next enqueues acks stop nonempty phase =>
    split at stepped
    · next timed =>
      split at stepped
      · cases stepped
      · next problem db performed =>
        cases stepped
        rcases perform_enqueue performed with ⟨_, _, messages⟩ | ⟨_, _, answered, _⟩
        · exact settled_of_db messages
        · cases answered
      · next results db performed =>
        cases stepped
        rcases perform_enqueue performed with
          ⟨_, answered, _⟩ | ⟨given, table, answered, accepted, messages⟩
        · cases answered
        · exact
            .batchStored _ shard enqueues acks stop times given table phase timed
              accepted rfl rfl messages rfl rfl rfl
    · cases stepped
  · cases stepped

theorem deliveredBatch_requests {pairs : List (String × String)} {path : Path} {request : Action}
    (may : (Call.deliveredBatch pairs).May path request) :
    request.storesMessages = false ∧ ∀ store removal, request ≠ .sql (.remove store removal) := by
  obtain ⟨allowed, _⟩ := may
  constructor
  · unfold Action.storesMessages
    split
    · exact allowed.1.elim
    · cases allowed.1
    · rfl
  · rintro store removal rfl
    exact allowed.1

theorem step_commit {shard : ShardIndex} (tame : ∀ shard, (before.shards shard).phase.Tame)
    (stepped : before.step limits (.commit shard choice) = some after) :
    WriterEffect before after (.commit shard choice) := by
  simp only [step, commit] at stepped
  split at stepped
  · next acks stop result phase =>
    cases stepped
    exact .moved _ shard _ rfl (WriterShard.finish_move phase) (WriterShard.finish_kept _ stop).1
      (WriterShard.finish_kept _ stop).2
  · next acks stop request next phase =>
    split at stepped
    · cases stepped
    · next answer db performed =>
      cases stepped
      have running := tame shard
      rw [phase] at running
      obtain ⟨path, may, onward⟩ := running
      obtain ⟨storesNothing, removesNothing⟩ := deliveredBatch_requests may
      refine .acted _ request answer (perform_effect performed) storesNothing
        (.inr removesNothing) rfl ?_ ?_ ⟨rfl, rfl, rfl⟩ (sameRecent_of_update rfl rfl)
      · intro other
        by_cases same : other = shard
        · subst same
          simp [setShard, phase, WriterPhase.batch, WriterPhase.Stopping, WriterShard.closed]
        · simp [setShard, same]
      · intro other
        by_cases same : other = shard
        · subst same
          simp only [setShard, Function.update_self]
          exact ⟨_, onward answer⟩
        · simp only [setShard, Function.update_of_ne same]
          exact tame other
  · cases stepped

theorem enqueueItem_of_enqueueGroup {input : EnqueueInput} {now : Nat}
    {table stored : MessageTable} {results : List (String × Bool)} {result : String × Bool}
    (accepted : enqueueGroup [(input, now)] table = .ok (results, stored))
    (last : results.getLast? = some result) :
    enqueueItem input now table = .ok (result, stored) := by
  unfold enqueueGroup at accepted
  split at accepted
  · cases accepted
  · next first middle item =>
    unfold enqueueGroup at accepted
    cases accepted
    cases last
    exact item

theorem step_store {key : Option String} {topic : String} {payload : List UInt8}
    {attributes uuid : String} {now : Nat} {fails : Bool}
    (stepped :
      before.step limits (.store key topic payload attributes uuid now fails) = some after) :
    WriterEffect before after (.store key topic payload attributes uuid now fails) := by
  simp only [step] at stepped
  split at stepped
  · cases stepped
  · next drawn done =>
    obtain ⟨drawnDb, rfl, drawnMessages⟩ := draw_spec done
    unfold store at stepped
    dsimp only at stepped
    split at stepped
    · cases stepped
    · next problem db performed =>
      cases stepped
      rcases perform_enqueue performed with ⟨_, _, messages⟩ | ⟨_, _, answered, _⟩
      · exact settled_of_db (messages.trans drawnMessages)
      · cases answered
    · next results db performed =>
      split at stepped
      · cases stepped
      · next id duplicate last =>
        cases stepped
        rcases perform_enqueue performed with
          ⟨_, answered, _⟩ | ⟨given, table, answered, accepted, messages⟩
        · cases answered
        · cases answered
          have item := enqueueItem_of_enqueueGroup accepted last
          rw [drawnMessages] at item messages
          cases duplicate with
          | true =>
            exact .storedDirectly key topic payload attributes uuid now fails id true
              table item rfl (fun _ => ⟨rfl, rfl⟩) messages rfl
              (fun _ => List.Subset.refl _) rfl fun _ => rfl
          | false =>
            refine .storedDirectly key topic payload attributes uuid now fails id false
              table item rfl (fun _ => ⟨rfl, rfl⟩) messages rfl ?_ rfl fun _ => rfl
            intro shard
            by_cases same : shard = topicShard topic
            · subst same
              simp [keep, receipt, message]
            · simp [keep, receipt, message, same]

theorem step_other {request : Action} (tame : ∀ shard, (before.shards shard).phase.Tame)
    (stepped : before.step limits (.other request choice) = some after) :
    WriterEffect before after (.other request choice) := by
  simp only [step, other] at stepped
  split at stepped
  · cases stepped
  · next harmless =>
    split at stepped
    · cases stepped
    · next answer db performed =>
      cases stepped
      exact .acted _ request answer (perform_effect performed) (by simpa using harmless)
        (.inl ⟨choice, rfl⟩) rfl (fun _ => ⟨rfl, rfl, Iff.rfl, rfl⟩) tame
        ⟨rfl, rfl, rfl⟩ fun _ => rfl

theorem step_effect (wellFormed : before.WellFormed)
    (stepped : before.step limits event = some after) :
    WriterEffect before after event := by
  cases event with
  | publish => exact step_publish stepped
  | acknowledge id lease =>
    simp only [step] at stepped
    split at stepped <;> cases stepped
    exact settled_of_await (.deliver id lease) wellFormed.below (fun _ => nofun) rfl
  | shutdown =>
    simp only [step] at stepped
    split at stepped <;> cases stepped
    exact settled_of_await (.shutdown allShards []) wellFormed.below (fun _ => nofun) rfl
  | accept => exact step_accept stepped
  | refuse => exact step_refuse stepped
  | cancel => exact step_cancel stepped
  | conclude => exact step_conclude stepped
  | hangUp =>
    simp only [step] at stepped
    split at stepped <;> cases stepped
    exact .settled _ (fun _ _ => Iff.rfl) (queues_refl before) rfl ⟨rfl, rfl, rfl⟩ fun _ => rfl
  | receive shard =>
    simp only [step] at stepped
    split at stepped
    · cases stepped
    · next current received =>
      cases stepped
      exact .moved _ shard current rfl (WriterShard.receive_move received)
        (WriterShard.receive_kept received).1 (WriterShard.receive_kept received).2
  | close shard =>
    simp only [step] at stepped
    split at stepped
    · cases stepped
    · next current closed =>
      cases stepped
      exact .moved _ shard current rfl (WriterShard.close_move closed)
        (WriterShard.close_kept closed).1 (WriterShard.close_kept closed).2
  | persist => exact step_persist stepped
  | commit => exact step_commit wellFormed.tame stepped
  | store => exact step_store stepped
  | other => exact step_other wellFormed.tame stepped

/-! ## Recent keys -/

section Recent

variable {shard : ShardIndex} {key id : String}

theorem recent_of_forget {input : EnqueueInput}
    (shown : ((before.forget input).shards shard).recent.get key = some id) :
    (before.shards shard).recent.get key = some id := by
  unfold forget at shown
  split at shown
  · exact shown
  · rw [recent_setShard] at shown
    split at shown
    · next here =>
      rw [here]
      exact RecentIds.get_of_remove shown
    · exact shown

theorem recent_forget_self {input : EnqueueInput} (here : topicShard input.topic = shard)
    (keyed : input.idempotencyKey = some key) :
    ((before.forget input).shards shard).recent.get key = none := by
  subst here
  rw [forget, keyed, recent_setShard, if_pos rfl]
  exact AList.lookup_erase _ _

/-- What is newly found under a recent key is the message of a publish that now waits. -/
theorem recent_of_effect (effect : WriterEffect before after event)
    (shown : (after.shards shard).recent.get key = some id) :
    (before.shards shard).recent.get key = some id ∨
      ∃ keyText topic payload attributes uuid,
        event = .publish keyText topic payload attributes uuid ∧ topicShard topic = shard ∧
          keyText.filter (· ≠ "") = some key ∧ newMessageId topic uuid = id ∧
          after.calls = Function.update before.calls before.fresh
            (some (.publish (message keyText topic payload attributes uuid))) := by
  have kept (same : before.SameRecent after) : (before.shards shard).recent.get key = some id :=
    same shard ▸ shown
  cases effect with
  | offered keyText topic payload attributes uuid _ calls _ _ _ recents =>
    cases keyed : keyText.filter (· ≠ "") with
    | none =>
      rw [keyed] at recents
      exact .inl (kept recents)
    | some name =>
      rw [keyed] at recents
      obtain ⟨recent, inserted, recents⟩ := recents
      rw [recents] at shown
      split at shown
      · next here =>
        rcases RecentIds.get_of_insert inserted shown with ⟨rfl, rfl⟩ | old
        · exact .inr ⟨_, topic, _, _, uuid, rfl, here.symm, keyed, rfl, calls⟩
        · exact .inl (here ▸ old)
      · exact .inl shown
  | withdrawn _ _ _ _ _ _ _ _ _ recents =>
    rcases recents with ⟨_, same⟩ | ⟨_, forgot⟩
    · exact .inl (kept same)
    · exact .inl (recent_of_forget (forgot shard ▸ shown))
  | admitted _ _ _ _ shards => exact .inl (kept (sameRecent_of_update shards rfl))
  | moved _ _ _ same _ _ recent =>
    subst same
    exact .inl (kept (sameRecent_of_update rfl recent))
  | batchStored _ _ _ acks stop _ _ _ _ _ _ _ shards =>
    exact .inl (kept (sameRecent_of_update shards (WriterShard.turnToAcks_kept _ acks stop).2))
  | repeated _ _ _ _ _ _ _ _ _ _ _ _ _ _ _ recents
  | settled _ _ _ _ _ recents | storedDirectly _ _ _ _ _ _ _ _ _ _ _ _ _ _ _ _ _ recents
  | acted _ _ _ _ _ _ _ _ _ _ recents => exact .inl (kept recents)

theorem get_of_foldlM :
    ∀ {entries : List (String × String)} {recent filled : RecentIds},
      entries.foldlM (fun recent entry => recent.insert entry.1 entry.2) recent = some filled →
        filled.get key = some id → recent.get key = some id ∨ (key, id) ∈ entries
  | [], recent, filled, done, shown => by
    cases done
    exact .inl shown
  | entry :: rest, recent, filled, done, shown => by
    rw [List.foldlM_cons] at done
    obtain ⟨inserted, first, later⟩ := Option.bind_eq_some_iff.mp done
    rcases get_of_foldlM later shown with old | new
    · rcases RecentIds.get_of_insert first old with ⟨rfl, rfl⟩ | older
      · exact .inr (.head _)
      · exact .inl older
    · exact .inr (.tail _ new)

/-- The keys a shard starts with are those of its rows. -/
theorem row_of_start {limits : Limits} {order : ShardIndex → List String} {writer : Writer}
    (started : start limits db order = some writer)
    (shown : (writer.shards shard).recent.get key = some id) :
    ∃ row ∈ (db.messages (.shard shard)).rows, row.idempotencyKey = some key ∧ row.id = id := by
  unfold start at started
  split at started
  · next loads =>
    cases started
    obtain ⟨recent, loaded⟩ := Option.isSome_iff_exists.mp (loads shard)
    dsimp only at shown
    rw [loaded, Option.getD_some] at shown
    unfold loadRecent at loaded
    split at loaded
    · cases loaded
    · next entries read =>
      rcases get_of_foldlM loaded shown with impossible | listed
      · cases impossible
      · unfold recentIdempotencyKeys at read
        dsimp only at read
        split at read <;> cases read
        obtain ⟨row, arranged, same⟩ := List.mem_filterMap.mp listed
        obtain ⟨name, keyed, same⟩ := Option.map_eq_some_iff.mp same
        cases same
        have candidate := Trace.mem_of_mem_arrange arranged
        exact ⟨row, (List.mem_filter.mp candidate).1, keyed, rfl⟩
  · cases started

end Recent

/-! ## Numbers of calls -/

section

variable (below : before.CallsBelow)

include below

theorem CallsBelow.await (waiting : Waiting) :
    (before.await waiting).CallsBelow := by
  intro call beyond
  have different : call ≠ before.fresh := by
    have := beyond
    simp only [Writer.await] at this
    omega
  simp only [Writer.await, setCall, Function.update_of_ne different]
  exact below call (by simp only [Writer.await] at beyond; omega)

variable {call : Nat}

/-- A number that was in use gets another call, or none. -/
theorem CallsBelow.update {waiting : Waiting} {next : Option Waiting}
    (found : before.calls call = some waiting)
    (calls : after.calls = Function.update before.calls call next)
    (fresh : after.fresh = before.fresh) : after.CallsBelow := by
  intro other beyond
  have free := below other (fresh ▸ beyond)
  rw [calls, Function.update_apply]
  grind

theorem CallsBelow.of_eq (calls : after.calls = before.calls)
    (fresh : after.fresh = before.fresh) : after.CallsBelow := by
  intro call beyond
  rw [calls]
  exact below call (fresh ▸ beyond)

theorem callsBelow_offer {input : EnqueueInput}
    (offered : before.offer input = some after) : after.CallsBelow := by
  unfold offer at offered
  dsimp only at offered
  repeat' split at offered
  all_goals cases offered
  · exact below.await _
  · exact below.of_eq rfl rfl
  · exact CallsBelow.await (below.of_eq rfl rfl) _

theorem callsBelow_step (stepped : before.step limits event = some after) : after.CallsBelow := by
  cases event with
  | publish =>
    simp only [step] at stepped
    repeat' split at stepped
    any_goals cases stepped
    next drawn done =>
      obtain ⟨db, rfl, _⟩ := draw_spec done
      exact callsBelow_offer (below.of_eq rfl rfl : CallsBelow { before with db := db }) stepped
  | acknowledge | shutdown =>
    simp only [step] at stepped
    split at stepped <;> cases stepped
    exact below.await _
  | accept =>
    simp only [step, accept] at stepped
    repeat' split at stepped
    all_goals cases stepped
    all_goals
      rename_i waiting _ _ done
      obtain ⟨_, rfl⟩ := send_spec done
      exact below.update waiting rfl rfl
  | store =>
    simp only [step] at stepped
    split at stepped
    · cases stepped
    · next drawn done =>
      obtain ⟨db, rfl, _⟩ := draw_spec done
      unfold store at stepped
      dsimp only at stepped
      repeat' split at stepped
      all_goals cases stepped
      all_goals exact below.of_eq rfl rfl
  | _ =>
    simp only [step, refuse, cancel, conclude, persist, commit, other, forget] at stepped
    repeat' split at stepped
    all_goals cases stepped
    all_goals first | exact below.of_eq rfl rfl | exact below.update ‹_› rfl rfl

end

/-! ## Programs of the tasks -/

theorem tame_of_effect (tame : ∀ shard, (before.shards shard).phase.Tame)
    (effect : WriterEffect before after event) (shard : ShardIndex) :
    (after.shards shard).phase.Tame := by
  have updated {target : ShardIndex} {next : WriterShard} (nextTame : next.phase.Tame) :
      (Function.update before.shards target next shard).phase.Tame := by
    rw [Function.update_apply]
    split
    · exact nextTame
    · exact tame shard
  cases effect with
  | offered _ _ _ _ _ _ _ shards | repeated _ _ _ _ _ _ _ _ _ _ shards
  | withdrawn _ _ _ _ _ _ shards | storedDirectly _ _ _ _ _ _ _ _ _ _ _ _ shards =>
    exact (shards shard).2 ▸ tame shard
  | admitted _ input _ _ shards =>
    rw [shards]
    exact updated (tame (topicShard input.topic))
  | settled _ _ queues => exact (queues shard).1 ▸ tame shard
  | moved _ _ _ same _ nextTame =>
    subst same
    exact updated nextTame
  | batchStored _ _ _ acks stop _ _ _ _ _ _ _ shards =>
    rw [shards]
    exact updated (WriterShard.turnToAcks_kept _ acks stop).1
  | acted _ _ _ _ _ _ _ _ afterTame =>
    exact afterTame shard

theorem wellFormed_step (wellFormed : before.WellFormed)
    (stepped : before.step limits event = some after) : after.WellFormed :=
  ⟨callsBelow_step wellFormed.below stepped,
    tame_of_effect wellFormed.tame (step_effect wellFormed stepped)⟩

variable {order : ShardIndex → List String}

theorem wellFormed_start {writer : Writer}
    (started : start limits db order = some writer) : writer.WellFormed := by
  unfold start at started
  split at started <;> cases started
  exact ⟨fun _ _ => rfl, fun _ => trivial⟩

variable {events : List WriterEvent} {initial final : Writer}

theorem wellFormed_replay (started : start limits db order = some initial)
    (ran : initial.replay limits events = some final) : final.WellFormed :=
  run_invariant (fun held stepped => wellFormed_step held stepped) (wellFormed_start started) ran

/-- The invariant rule of the writer: a property kept by every listed effect of
a step that meets the condition holds at the end of every run whose steps all
meet it. -/
theorem replay_invariant {holds : Writer → Prop} {meets : Writer → WriterEvent → Prop}
    (preserved :
      ∀ {before after : Writer} {event : WriterEvent}, before.WellFormed →
        holds before → meets before event → WriterEffect before after event → holds after)
    (started : start limits db order = some initial) (initially : holds initial)
    (along : Along (step limits) meets initial events)
    (ran : initial.replay limits events = some final) : holds final := by
  have stepwise : ∀ {current reached : Writer} {event : WriterEvent},
      current.WellFormed ∧ holds current → meets current event →
        current.step limits event = some reached → reached.WellFormed ∧ holds reached := by
    rintro current reached event ⟨wellFormed, held⟩ met stepped
    exact ⟨wellFormed_step wellFormed stepped,
      preserved wellFormed held met (step_effect wellFormed stepped)⟩
  exact (run_invariant_along stepwise ⟨wellFormed_start started, initially⟩ along ran).2

theorem quiescent_of_fresh (started : start limits db order = some initial)
    (ran : initial.replay limits events = some final)
    (ended : ∀ call < final.fresh, final.calls call = none) : final.Quiescent := by
  intro call
  by_cases used : call < final.fresh
  · exact ended call used
  · exact (wellFormed_replay started ran).below call (Nat.not_lt.mp used)

theorem exists_quiescent_of_check {meets : Writer → Prop} [DecidablePred meets]
    (checked :
      ((start limits db order).any fun initial =>
        (initial.replay limits events).any fun final =>
          decide ((∀ call < final.fresh, final.calls call = none) ∧ meets final)) = true) :
    ∃ initial final, start limits db order = some initial ∧
      initial.replay limits events = some final ∧ final.Quiescent ∧ meets final := by
  obtain ⟨initial, final, started, ran, ended, holds⟩ := exists_run_of_check checked
  exact ⟨initial, final, started, ran, quiescent_of_fresh started ran ended, holds⟩

end Writer

/-! ## What is to be stored -/

/-- The receipt of a message that the channel has taken. -/
def EnqueueInput.receipt (input : EnqueueInput) : Receipt :=
  ⟨input.topic, input.idempotencyKey, input.id, false, false⟩

/-- The messages the task still has to store, in the order of their turn. -/
def WriterShard.unstored (shard : WriterShard) : List EnqueueInput :=
  shard.phase.batch ++ shard.queued

/-- The receipts of the messages that the channels have taken, oldest first. -/
def Writer.admissions (writer : Writer) : List Receipt :=
  (writer.receipts.filter fun receipt => !receipt.durable && !receipt.duplicate).reverse

namespace WriterShard

variable {current next : WriterShard}

theorem queued_of_eq (queue : next.queue = current.queue) :
    next.queued = current.queued := by
  rw [queued, queued, queue]

theorem unstored_of_eq (queue : next.queue = current.queue)
    (batch : next.phase.batch = current.phase.batch) : next.unstored = current.unstored := by
  rw [unstored, unstored, queued_of_eq queue, batch]

/-- A move of a task takes nothing from what it still has to store, unless the task
ends. -/
theorem unstored_of_move (move : ShardMove current next) :
    next.unstored = current.unstored ∨ next = current.exit := by
  cases move with
  | took command _ queue notShutdown left batch =>
    rw [unstored, unstored, queued, queued, left, batch, queue]
    cases command with
    | enqueue | delivered => simp [List.filterMap_cons]
    | shutdown caller => exact absurd rfl (notShutdown caller)
  | stopped _ _ queue left batch =>
    rw [unstored, unstored, queued, queued, left, batch, queue]
    simp [List.filterMap_cons]
  | regrouped queue batch => exact .inl (unstored_of_eq queue batch)
  | left exit => exact .inr exit

theorem unstored_turnToAcks_sublist (current : WriterShard) (acks : List DeliveredCommand)
    (stop : Option Nat) : (current.turnToAcks acks stop).unstored.Sublist current.queued := by
  rcases Writer.turnToAcks_cases current acks stop with ⟨exits, _⟩ | ⟨queue, noBatch, _, _⟩
  · rw [exits]
    exact List.nil_sublist _
  · rw [unstored, noBatch, queued_of_eq queue, List.nil_append]

end WriterShard

namespace Writer

variable {before after : Writer} {input : EnqueueInput} {event : WriterEvent}

theorem unstored_of_sameShards (same : before.SameShards after) (shard : ShardIndex) :
    (after.shards shard).unstored = (before.shards shard).unstored :=
  WriterShard.unstored_of_eq (same shard).1 (congrArg WriterPhase.batch (same shard).2)

theorem unstored_of_admitted
    (shards :
      after.shards = Function.update before.shards (topicShard input.topic)
          { before.shards (topicShard input.topic) with
            queue := (before.shards (topicShard input.topic)).queue ++ [.enqueue input] })
    (shard : ShardIndex) :
    (after.shards shard).unstored = (before.shards shard).unstored ++
      if topicShard input.topic = shard then [input] else [] := by
  rw [shards]
  by_cases same : topicShard input.topic = shard
  · subst same
    rw [Function.update_self, if_pos rfl]
    simp [WriterShard.unstored, WriterShard.queued, List.filterMap_append]
  · rw [Function.update_of_ne (Ne.symm same), if_neg same, List.append_nil]

theorem admissions_of_receipts (receipts : after.receipts = before.receipts) :
    after.admissions = before.admissions := by
  rw [admissions, admissions, receipts]

theorem admissions_of_other {receipt : Receipt}
    (receipts : after.receipts = receipt :: before.receipts)
    (other : (!receipt.durable && !receipt.duplicate) = false) :
    after.admissions = before.admissions := by
  rw [admissions, admissions, receipts, List.filter_cons, other]
  rfl

theorem admissions_of_admitted
    (receipts : after.receipts = input.receipt :: before.receipts) :
    after.admissions = before.admissions ++ [input.receipt] := by
  rw [admissions, admissions, receipts, List.filter_cons]
  exact List.reverse_cons

/-- What a step does to what a shard has to store and to the admissions: the first gets
shorter and the admissions at most longer, or a message of a publish joins both. -/
theorem unstored_step (effect : WriterEffect before after event) (shard : ShardIndex) :
    ((after.shards shard).unstored.Sublist (before.shards shard).unstored ∧
        before.admissions.Sublist after.admissions) ∨
      ∃ call input, before.calls call = some (.publish input) ∧ topicShard input.topic = shard ∧
        (after.shards shard).unstored = (before.shards shard).unstored ++ [input] ∧
        after.admissions = before.admissions ++ [input.receipt] := by
  have kept {writer : Writer} (same : before.SameShards writer) :
      (writer.shards shard).unstored.Sublist (before.shards shard).unstored := by
    rw [unstored_of_sameShards same]
  cases effect with
  | offered _ _ _ _ _ _ _ shards _ logs | withdrawn _ _ _ _ _ _ shards _ logs =>
    exact .inl ⟨kept shards, (admissions_of_receipts logs.receipts).symm ▸ .refl _⟩
  | repeated _ _ _ _ _ _ _ _ _ _ shards _ receipts
  | storedDirectly _ _ _ _ _ _ _ _ _ _ _ _ shards _ receipts =>
    exact .inl ⟨kept shards, (admissions_of_other receipts rfl).symm ▸ .refl _⟩
  | admitted call input waiting _ shards _ _ receipts =>
    have unstored := unstored_of_admitted shards shard
    by_cases same : topicShard input.topic = shard
    · rw [if_pos same] at unstored
      exact .inr ⟨call, input, waiting, same, unstored, admissions_of_admitted receipts⟩
    · rw [if_neg same, List.append_nil] at unstored
      rw [unstored, admissions_of_admitted receipts]
      exact .inl ⟨.refl _, List.sublist_append_left _ _⟩
  | settled _ _ queues _ logs =>
    refine .inl ⟨?_, (admissions_of_receipts logs.receipts).symm ▸ .refl _⟩
    obtain ⟨phase, extra, noInput, queue⟩ := queues shard
    rw [WriterShard.unstored, WriterShard.unstored, WriterShard.queued, WriterShard.queued,
      phase, queue, List.filterMap_append, noInput, List.append_nil]
  | moved _ target _ same move =>
    refine .inl ⟨?_, same ▸ .refl _⟩
    rw [same, setShard]
    dsimp only
    by_cases here : shard = target
    · subst here
      rw [Function.update_self]
      rcases WriterShard.unstored_of_move move with same | exit
      · rw [same]
      · rw [exit]
        exact List.nil_sublist _
    · rw [Function.update_of_ne here]
  | batchStored _ target _ acks stop _ _ _ _ _ _ _ shards _ receipts =>
      refine .inl ⟨?_, (admissions_of_receipts receipts).symm ▸ .refl _⟩
      rw [shards]
      by_cases here : shard = target
      · subst here
        rw [Function.update_self]
        exact (WriterShard.unstored_turnToAcks_sublist _ acks stop).trans
          (List.sublist_append_right _ _)
      · rw [Function.update_of_ne here]
  | acted _ _ _ _ _ _ _ shards _ logs =>
    refine .inl ⟨?_, (admissions_of_receipts logs.receipts).symm ▸ .refl _⟩
    rw [WriterShard.unstored_of_eq (shards shard).1 (shards shard).2.1]

theorem mem_unstored_step (effect : WriterEffect before after event) {shard : ShardIndex}
    (member : input ∈ (after.shards shard).unstored) :
    input ∈ (before.shards shard).unstored ∨
      (topicShard input.topic = shard ∧ ∃ call, before.calls call = some (.publish input)) := by
  rcases unstored_step effect shard with ⟨shorter, _⟩ | ⟨call, _, waiting, here, joined, _⟩
  · exact .inl (shorter.subset member)
  · rw [joined] at member
    rcases List.mem_append.mp member with old | new
    · exact .inl old
    · cases List.mem_singleton.mp new
      exact .inr ⟨here, call, waiting⟩

end Writer

end CanglingBroker
