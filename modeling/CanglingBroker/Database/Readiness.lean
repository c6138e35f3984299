import CanglingBroker.Database.ClaimBatch

/-!
# Claims and the messages they find ready

The batch claim selects and takes in one statement.  `claim_next_excluding` selects a row
first and takes it with a second statement, which checks that the row is pending but not
that it is the row it has read.
-/

namespace CanglingBroker

open Foundation
open Program (Ends Ensures Triple ensures_map triple_exceptBind triple_map)

/-- The calls that claim messages or put claimed ones back. -/
def Call.Contends : Call → Prop
  | .claimBatchForTopic .. | .claimBatchForFilter .. | .claimNextExcluding ..
  | .failed .. | .release .. | .reclaimStale => True
  | _ => False

instance : (call : Call) → Decidable call.Contends
  | .claimBatchForTopic .. | .claimBatchForFilter .. | .claimNextExcluding ..
  | .failed .. | .release .. | .reclaimStale => .isTrue trivial
  | .connect | .topicConfig _ | .noteSubscribedTopic _ | .configureTopics _
  | .listTopicConfigs | .ephemeralTopics | .flushTopicStats | .registerConsumer ..
  | .touchConsumer _ | .unregisterConsumer _ | .purgeStaleConsumers _ | .enqueue ..
  | .enqueueBatch _ | .acceptDropped _ | .recordLiveFanout _ | .renewClaim ..
  | .delivered .. | .deliveredBatch _ | .dropClaimed .. | .dropPending _
  | .clearTopicMessages _ | .purgeOlderThan _ | .purgeDeliveredOlderThan _
  | .purgeIdleEphemeral .. => .isFalse not_false

def reading : (request : Action) → Reply request → Option Nat
  | .access .now, now => some now
  | _, _ => none

/-- A row that `claim_next_excluding` has selected as ready at an instant. -/
structure Selection where
  store : Store
  now : Nat
  row : MessageRow

/-- The row that a call has selected and not yet tried to take. -/
def selectedOn : Path → Option Selection
  | ⟨.sql (.selectReady store now _), .ok (some row)⟩ :: _ => some ⟨store, now, row⟩
  | ⟨.access .newUuid, _⟩ :: ⟨.sql (.selectReady store now _), .ok (some row)⟩ :: _ =>
    some ⟨store, now, row⟩
  | _ => none

/-- The instant by which a claim looks for ready messages: that of its statement, or of the
selection which the statement follows. -/
def askedAt (path : Path) : Action → Option Nat
  | .sql (.update _ (.claimBatch _ _ now _ _)) => some now
  | .sql (.update _ (.claimOne ..)) => (selectedOn path).map Selection.now
  | _ => none

/-- The statement makes the message of this identifier pending again. -/
def PutsBack (db : Database) (store : Store) (id : String) : Action → Prop
  | .sql (.update target statement) =>
    target = store ∧ ∃ row ∈ (db.messages store).rows,
        row.id = id ∧ statement.guard [] row = true ∧ (statement.set row).status = .pending
  | _ => False

namespace Readiness

/-- A statement that succeeds puts no message back that another call has selected and not
yet tried to take. -/
def LeavesSelected (pool : Broker) : BrokerEvent → Prop
  | .advance thread choice =>
    ∀ request, pool.next? thread = some request → choice.fails = false →
      ∀ other selection, other ≠ thread → (pool.threads other).isSome = true →
        selectedOn (ownPath other pool.history) = some selection →
          ¬ PutsBack pool.shared selection.store selection.row.id request
  | _ => True

/-- A message was handed out as it should be: the call took it with a statement at which
it was pending and ready at the instant which the call has read for it, and its attempts
are those that the statement left. -/
def TakenReady (pool : Broker) (thread : Nat) (message : ClaimedMessage) : Prop :=
  ∃ newer entry older store, pool.history = newer ++ entry :: older ∧ entry.thread = thread ∧
      (∃ row ∈ (entry.before.messages store).rows,
        row.id = message.id ∧ row.status = .pending ∧
          ∃ now, askedAt (ownPath thread older) entry.request = some now ∧
            row.nextAttemptAt ≤ now ∧ ∃ earlier ∈ older, earlier.thread = thread ∧
              reading earlier.request earlier.answer = some now) ∧
      ∃ taken ∈ (entry.after.messages store).rows,
        taken.id = message.id ∧ taken.status = .processing ∧
          taken.lease = some message.lease ∧ taken.attempts = message.attempts

end Readiness

/-! ## What a claim returns -/

/-- The exchange that took the message, on the path before it. -/
inductive TookOn (message : ClaimedMessage) : Exchange Action Reply → Path → Prop
  | batch (store : Store) (lease : String) (visibleAgain now : Nat) (topic : String)
      (limit : Nat) (rows : List MessageRow) (row : MessageRow) (path : Path)
      (read : (⟨.access .now, now⟩ : Exchange Action Reply) ∈ path)
      (returned : row ∈ rows) (same : message = row.claimed lease row.attempts) :
      TookOn message
        ⟨.sql (.update store (.claimBatch lease visibleAgain now topic limit)), .ok rows⟩ path
  | one (store : Store) (lease : String) (visibleAgain now : Nat) (skip : List String)
      (changed : List MessageRow) (row : MessageRow) (path : Path)
      (found : changed ≠ []) (same : message = row.claimed lease (row.attempts + 1)) :
      TookOn message
        ⟨.sql (.update store (.claimOne lease visibleAgain row.id)), .ok changed⟩
        (⟨.access .newUuid, lease⟩ :: ⟨.sql (.selectReady store now skip), .ok (some row)⟩ ::
          ⟨.access .now, now⟩ :: path)

def TookAll (messages : List ClaimedMessage) (path : Path) : Prop :=
  ∀ message ∈ messages, ∃ newer exchange older,
    path = newer ++ exchange :: older ∧ TookOn message exchange older

namespace Db

variable (validJson : String → Bool)

theorem tookAll_claimBatchForTopic (topic : String) (visibility limit : Nat) :
    Triple (fun _ _ => True) (fun _ => True)
      (claimBatchForTopic validJson topic visibility limit).run
      (Ends (fun _ _ => True) TookAll) := by
  intro path _
  refine ensures_access.mpr ⟨trivial, fun now => ?_⟩
  refine ensures_access.mpr ⟨trivial, fun lease => ?_⟩
  split
  · exact trivial
  · refine ensures_sql.mpr ⟨trivial, fun rows => ?_, fun _ => trivial⟩
    split
    · intro message member
      obtain ⟨row, returned, rfl⟩ := List.mem_map.mp ((List.mem_insertionSort _).mp member)
      refine ⟨[], _, _, rfl, ?_⟩
      exact TookOn.batch _ lease _ now topic _ rows row _ (.tail _ (.head _)) returned rfl
    · exact trivial

/-- A search keeps going until it has messages that were taken. -/
def TookFound (found : Option (List ClaimedMessage)) : Path → Prop :=
  found.elim (fun _ => True) TookAll

theorem tookAll_claimFrom (filter : String) (visibility limit : Nat) (topic : String) :
    Triple (fun _ _ => True) (fun _ => True)
      (claimFrom validJson filter visibility limit topic).run
      (Ends (fun _ _ => True) TookFound) := by
  unfold claimFrom
  split
  · refine
      triple_exceptBind (tookAll_claimBatchForTopic validJson topic visibility limit)
        fun messages => ?_
    split
    · exact fun _ _ => trivial
    · exact fun _ took => took
  · exact fun _ _ => trivial

private theorem triple_free {Result : Type} (program : Db Result) :
    Triple (fun _ _ => True) (fun _ => True) program.run
      (Ends (fun _ _ => True) fun _ _ => True) := by
  intro path _
  refine Program.ensures_of_extends fun _ outcome _ => ?_
  cases outcome with
  | ok => exact trivial
  | error => exact trivial

theorem tookAll_claimBatchForFilter (filter : String) (visibility limit : Nat) :
    Triple (fun _ _ => True) (fun _ => True)
      (claimBatchForFilter validJson filter visibility limit).run
      (Ends (fun _ _ => True) TookAll) := by
  unfold claimBatchForFilter
  split
  · exact tookAll_claimBatchForTopic validJson filter visibility limit
  · refine triple_exceptBind (triple_free _) fun start => ?_
    have swept : Triple (fun _ _ => True) (fun _ => True)
        (firstSome
          (fun shard => do
            let now ← access .now
            let topics ← sql (.readyTopics (.shard shard) now)
            firstSome (claimFrom validJson filter visibility limit) (rotated start topics))
          (sweep start)).run
        (Ends (fun _ _ => True) TookFound) :=
      triple_firstSome fun shard _ =>
        triple_exceptBind (triple_free _) fun now =>
          triple_exceptBind (triple_free _) fun topics =>
            triple_firstSome fun topic _ =>
              tookAll_claimFrom validJson filter visibility limit topic
    refine triple_exceptBind swept fun found => ?_
    cases found with
    | some => exact fun _ took => took
    | none =>
      intro path _ message member
      cases member

theorem tookAll_claimNext (shard : ShardIndex) (visibility : Nat) (skipTopics : List String) :
    Triple (fun _ _ => True) (fun _ => True)
      (do
        let now ← access .now
        let row ← sql (.selectReady (.shard shard) now skipTopics)
        finishClaim validJson shard now visibility row : Db (Option ClaimedMessage)).run
      (Ends (fun _ _ => True) fun found path =>
        found.elim (fun _ => True) (fun message => TookAll [message]) path) := by
  intro path _
  refine ensures_access.mpr ⟨trivial, fun now => ?_⟩
  refine ensures_sql.mpr ⟨trivial, fun selected => ?_, fun _ => trivial⟩
  cases selected with
  | none => exact trivial
  | some row =>
    refine ensures_access.mpr ⟨trivial, fun lease => ?_⟩
    dsimp only
    split
    · exact trivial
    · refine ensures_sql.mpr ⟨trivial, fun changed => ?_, fun _ => trivial⟩
      split
      · exact trivial
      · next some =>
        split
        · intro message member
          rw [List.mem_singleton.mp member]
          refine ⟨[], _, _, rfl, ?_⟩
          refine TookOn.one _ lease _ now skipTopics changed row path ?_ rfl
          rintro rfl
          exact some rfl
        · exact trivial

theorem tookAll_claimNextExcluding (visibility : Nat) (skipTopics : List String) :
    Triple (fun _ _ => True) (fun _ => True)
      (claimNextExcluding validJson visibility skipTopics).run
      (Ends (fun _ _ => True) fun found path => TookAll found.toList path) := by
  unfold claimNextExcluding
  refine triple_exceptBind (triple_free _) fun start => ?_
  have searched :=
    triple_firstSome fun shard (_ : shard ∈ sweep (start % messageShards)) =>
      tookAll_claimNext validJson shard visibility skipTopics
  refine searched.consequence (fun _ _ => trivial) fun outcome path ended => ?_
  match outcome, ended with
  | .error _, _ => exact trivial
  | .ok none, _ =>
    intro message member
    cases member
  | .ok (some message), took => exact took

end Db

def Call.Took (call : Call) (path : Path) (outcome : Outcome) : Prop :=
  call.Claims → ∀ messages, outcome = .ok (.claimed messages) → TookAll messages path

theorem Call.took_body (validJson : String → Bool) (call : Call) :
    Ensures (fun _ _ => True) call.Took [] (call.body validJson).run := by
  have batches : ∀ {program : Db (List ClaimedMessage)},
      Triple (fun _ _ => True) (fun _ => True) program.run
          (Program.Ends (fun _ _ => True) TookAll) →
        Ensures (fun _ _ => True) call.Took [] (Value.claimed <$> program).run := by
    intro program triple
    refine ensures_map ((triple [] trivial).weaken fun path outcome ended => ?_)
    cases outcome with
    | ok =>
      rintro _ _ ⟨⟩
      exact ended
    | error => rintro _ _ ⟨⟩
  cases call with
  | claimBatchForTopic topic visibility limit =>
    exact batches (Db.tookAll_claimBatchForTopic validJson topic visibility limit)
  | claimBatchForFilter filter visibility limit =>
    exact batches (Db.tookAll_claimBatchForFilter validJson filter visibility limit)
  | claimNextExcluding visibility skipTopics =>
    refine ensures_map
      ((Db.tookAll_claimNextExcluding validJson visibility skipTopics [] trivial).weaken
        fun path outcome ended => ?_)
    cases outcome with
    | ok =>
      rintro _ _ ⟨⟩
      exact ended
    | error => rintro _ _ ⟨⟩
  | _ => exact Program.ensures_of_extends fun _ _ _ claims => claims.elim

/-! ## Selected rows -/

/-- The selected row is ready, and as long as it is pending it is stored as it was
selected. -/
def Selection.Stands (selection : Selection) (db : Database) : Prop :=
  selection.row.ready selection.now = true ∧
    ∀ stored ∈ (db.messages selection.store).rows, stored.id = selection.row.id →
      stored.status = .pending → stored = selection.row

section Steps

variable {before after : Database} {choice : Choice} {call : Call} {selection : Selection}
  {row : MessageRow}

theorem Call.Contends.ends_pending {store : Store} {statement : Update} {picked : List String}
    (contends : call.Contends) (updates : call.Updates store statement)
    (matched : statement.guard picked row = true) (pending : row.status = .pending) :
    (statement.set row).status ≠ .pending := by
  cases statement with
  | claimBatch | claimOne | dropPending => exact Status.noConfusion
  | recover =>
    cases updates
    exact contends.elim
  | _ => simp [Update.guard, MessageRow.held, pending] at matched

theorem guard_nil {statement : Update} {picked : List String}
    (matched : statement.guard picked row = true)
    (pending : (statement.set row).status = .pending) :
    statement.guard [] row = true := by
  cases statement with
  | claimBatch => cases pending
  | _ => exact matched

theorem eq_of_failing {statement : Sql} {answer : Reply (.sql statement)}
    (fails : choice.fails = true)
    (performed : perform choice before (.sql statement) = some (answer, after)) :
    after = before := by
  simp only [perform, fails, if_true, Option.some.injEq, Prod.mk.injEq] at performed
  exact performed.2.symm

theorem Selection.Stands.kept {request : Action} {answer : Reply request}
    (stands : selection.Stands before) (contends : call.Contends) (allowed : call.Allows request)
    (performed : perform choice before request = some (answer, after))
    (spares : choice.fails = false → ¬ PutsBack before selection.store selection.row.id request) :
    selection.Stands after := by
  refine ⟨stands.1, fun moved listed same pending => ?_⟩
  rcases (perform_effect performed).rows_after listed with ⟨stored, isStored, moves⟩ | created
  · cases moves with
    | same => exact stands.2 _ isStored same pending
    | updated statement _ asked matched =>
      subst asked
      by_cases fails : choice.fails = true
      · rw [eq_of_failing fails performed] at listed
        exact stands.2 _ listed same pending
      · have named : stored.id = selection.row.id := by
          rw [← same]
          exact congrArg Message.id (statement.set_toMessage stored).symm
        by_cases wasPending : stored.status = .pending
        · exact absurd pending (contends.ends_pending allowed matched wasPending)
        · exact
            absurd
              ⟨rfl, stored, isStored, named, guard_nil matched pending, pending⟩
              (spares (Bool.eq_false_of_not_eq_true fails))
    | delivered => cases pending
  · cases created with
    | enqueued _ _ asked =>
      subst asked
      cases call with
      | enqueue => exact contends.elim
      | enqueueBatch => exact contends.elim
      | _ => exact allowed.1.elim
    | copied _ asked =>
      subst asked
      cases allowed.1
      exact contends.elim

theorem stands_selectReady {store : Store} {now : Nat} {skip : List String}
    (performed :
      perform choice before (.sql (.selectReady store now skip)) = some (.ok (some row), after)) :
    Selection.Stands ⟨store, now, row⟩ after := by
  simp only [perform] at performed
  split at performed
  · cases performed
  · simp only [Sql.execute] at performed
    split at performed
    · cases performed
    · cases performed
    · next executed =>
      split at executed
      · simp only [Option.some.injEq, Prod.mk.injEq, Except.ok.injEq] at executed performed
        obtain ⟨chosen, rfl⟩ := executed
        obtain ⟨rfl, rfl⟩ := performed
        have candidate := Trace.mem_of_mem_arrange (List.mem_of_mem_head? chosen)
        obtain ⟨listed, ready⟩ := List.mem_filter.mp candidate
        rw [dispatchable, Bool.and_eq_true] at ready
        refine ⟨ready.1, fun stored isStored same _ => ?_⟩
        exact Table.eq_of_primary_eq _ isStored listed same
      · cases executed

end Steps

/-! ## Every reachable state -/

namespace Readiness

/-- What the calls have selected stands, for the running calls now and for every action of
the run when it was performed. -/
structure Standing (pool : Broker) : Prop where
  contends :
    ∀ thread running, pool.threads thread = some running → running.call.Contends
  running :
    ∀ thread, (pool.threads thread).isSome = true → ∀ selection,
      selectedOn (ownPath thread pool.history) = some selection → selection.Stands pool.shared
  acted :
    ∀ newer entry older, pool.history = newer ++ entry :: older → ∀ selection,
      selectedOn (ownPath entry.thread older) = some selection → selection.Stands entry.before

/-- What one action of a call leaves selected was selected before it, or it is the
selection. -/
theorem selectedOn_cons {exchange : Exchange Action Reply} {path : Path} {selection : Selection}
    (selected : selectedOn (exchange :: path) = some selection) :
    (∃ skip, exchange =
        ⟨.sql (.selectReady selection.store selection.now skip), .ok (some selection.row)⟩) ∨
      (exchange.request = .access .newUuid ∧ selectedOn path = some selection) := by
  unfold selectedOn at selected
  split at selected
  · next store now skip row rest shape =>
    cases selected
    cases shape
    exact .inl ⟨skip, rfl⟩
  · next answer store now skip row rest shape =>
    cases selected
    cases shape
    exact .inr ⟨rfl, rfl⟩
  · cases selected

variable {validJson : String → Bool}

theorem standing_start (initial : Database) : Standing (Pool.start initial) where
  contends := by intro thread running found; cases found
  running := by intro thread found; cases found
  acted := by
    intro newer entry older split
    exact absurd split (by simp [Pool.start])

variable {pool : Broker} {entry : Entry} {older : List Entry}

theorem stands_own {choice : Choice} {path : Path} {selection : Selection}
    (contends : entry.call.Contends) (allowed : entry.call.Allows entry.request)
    (performed : perform choice entry.before entry.request = some (entry.answer, entry.after))
    (stood : ∀ selection, selectedOn path = some selection → selection.Stands entry.before)
    (selected : selectedOn (entry.exchange :: path) = some selection) :
    selection.Stands entry.after := by
  obtain ⟨thread, call, request, answer, before, after⟩ := entry
  rcases selectedOn_cons selected with ⟨skip, same⟩ | ⟨drawn, earlier⟩
  · cases same
    exact stands_selectReady performed
  · cases drawn
    exact (stood selection earlier).kept contends allowed performed fun _ => id

theorem standing_step {pool reached : Broker} {event : BrokerEvent}
    (accounted : Pool.Accounted Call.May (fun _ _ _ => True) pool) (standing : Standing pool)
    (meets : LeavesSelected pool event ∧ ∀ call, event = .spawn call → call.Contends)
    (stepped : Pool.step (databaseComponent validJson) pool event = some reached) :
    Standing reached := by
  rcases Pool.step_cases stepped with
    ⟨call, rfl, rfl⟩ | ⟨choice, running, entry, next, rfl, acts, rfl⟩ | ⟨rfl, rfl⟩
  · refine ⟨fun other started isRunning => ?_, fun other isRunning => ?_, ?_⟩
    · rcases Pool.settle_running isRunning with ⟨_, rfl⟩ | ⟨_, before⟩
      · exact meets.2 call rfl
      · exact standing.contends other started before
    · rw [Pool.settle_history, Pool.settle_shared]
      obtain ⟨started, isStarted⟩ := Option.isSome_iff_exists.mp isRunning
      rcases Pool.settle_running isStarted with ⟨rfl, _⟩ | ⟨_, before⟩
      · -- A call that has just been started has selected nothing.
        intro selection selected
        rw [show ownPath pool.fresh _ = [] from accounted.ownPath_fresh] at selected
        cases selected
      · exact standing.running other (Option.isSome_iff_exists.mpr ⟨_, before⟩)
    · rw [Pool.settle_history]
      exact standing.acted
  · have contends : entry.call.Contends :=
      acts.sameCall ▸ standing.contends entry.thread running acts.found
    have allowed : entry.call.Allows entry.request := (acts.asks accounted).1
    have isRunning : (pool.threads entry.thread).isSome = true :=
      Option.isSome_iff_exists.mpr ⟨_, acts.found⟩
    have mine := standing.running entry.thread isRunning
    rw [← acts.previous] at mine
    refine ⟨fun other started isStarted => ?_, fun other isStarted => ?_, ?_⟩
    · obtain ⟨earlier, wasRunning, same⟩ := acts.runs isStarted
      exact same ▸ standing.contends other earlier wasRunning
    · rw [Pool.settle_history, Pool.settle_shared]
      intro selection selected
      by_cases own : other = entry.thread
      · subst own
        rw [ownPath_cons_self] at selected
        exact stands_own contends allowed acts.performed mine selected
      · rw [ownPath_cons_of_ne (Ne.symm own)] at selected
        rw [Pool.settle_threads_of_ne own] at isStarted
        have stands := standing.running other isStarted selection selected
        rw [← acts.previous] at stands
        refine stands.kept contends allowed acts.performed fun succeeds => ?_
        have spares :=
          meets.1 entry.request acts.next? succeeds other selection own isStarted selected
        rwa [← acts.previous] at spares
    · rw [Pool.settle_history]
      intro newer acted older split selection selected
      rcases List.cons_eq_append_iff.mp split with ⟨rfl, same⟩ | ⟨rest, rfl, below⟩
      · cases same
        exact mine selection selected
      · exact standing.acted rest acted older below selection selected
  · refine ⟨fun other started isStarted => ?_, fun other isStarted => ?_, ?_⟩
    · cases isStarted
    · cases isStarted
    · exact standing.acted

theorem standing_schedule {initial : Database} {events : List BrokerEvent}
    (domain : ∀ call, .spawn call ∈ events → call.Contends)
    (leaves :
      Along (Pool.step (databaseComponent validJson)) LeavesSelected (Pool.start initial) events)
    (scheduled : schedule validJson initial events = some pool) : Standing pool := by
  have starts : ∀ event ∈ events, ∀ call, event = .spawn call → call.Contends := by
    rintro event member call rfl
    exact domain call member
  exact Pool.invariant_along (fun call => call.behaves_body validJson [] trivial) standing_step
    (standing_start initial) (leaves.and_of_mem starts) scheduled

theorem changed_of_returned {store : Store} {statement : Update}
    {rows : List MessageRow} {row : MessageRow}
    (asked : entry.exchange = ⟨.sql (.update store statement), .ok rows⟩)
    (effect : Effect entry.before entry.request entry.answer entry.after) (returned : row ∈ rows) :
    ∃ picked, statement.Admits (entry.before.messages store) picked ∧
      ∃ stored ∈ (entry.before.messages store).rows,
        statement.guard picked stored = true ∧ statement.set stored = row ∧
          row ∈ (entry.after.messages store).rows := by
  obtain ⟨thread, call, request, answer, before, after⟩ := entry
  dsimp only at effect ⊢
  cases asked
  generalize same : (Except.ok rows : Except DbError (List MessageRow)) = result at effect
  cases effect with
  | updated _ _ picked admitted =>
    cases same
    obtain ⟨stored, isStored, matched, rfl⟩ := Update.mem_affected.mp returned
    refine ⟨picked, admitted, stored, isStored, matched, rfl, ?_⟩
    rw [Database.setMessages_messages_self]
    exact Update.mem_execute.mpr ⟨stored, isStored, if_pos matched⟩
  | refused => cases same
  | other _ _ _ harmless => exact harmless.elim

theorem exists_reading {thread now : Nat}
    (read : (⟨.access .now, now⟩ : Exchange Action Reply) ∈ ownPath thread older) :
    ∃ earlier ∈ older, earlier.thread = thread ∧
      reading earlier.request earlier.answer = some now := by
  obtain ⟨earlier, isEarlier, own, was⟩ := exists_performed_of_mem_ownPath read
  obtain ⟨thread, call, request, answer, before, after⟩ := earlier
  cases was
  exact ⟨_, isEarlier, own, rfl⟩

/-- A batch claim takes what is ready at the instant it has read. -/
theorem takenReady_batch {newer : List Entry} {store : Store} {lease : String}
    {visibleAgain now : Nat} {topic : String} {limit : Nat} {rows : List MessageRow}
    {row : MessageRow} (split : pool.history = newer ++ entry :: older) (asked :
      entry.exchange =
        ⟨.sql (.update store (.claimBatch lease visibleAgain now topic limit)), .ok rows⟩)
    (effect : Effect entry.before entry.request entry.answer entry.after)
    (read : (⟨.access .now, now⟩ : Exchange Action Reply) ∈ ownPath entry.thread older)
    (returned : row ∈ rows) :
    TakenReady pool entry.thread (row.claimed lease row.attempts) := by
  have instant : askedAt (ownPath entry.thread older) entry.request = some now :=
    congrArg (fun exchange => askedAt (ownPath entry.thread older) exchange.request) asked
  obtain ⟨picked, admitted, stored, isStored, matched, rfl, taken⟩ :=
    changed_of_returned asked effect returned
  have candidate :=
    mem_candidates_of_picked admitted isStored ((claimBatch_guard admitted isStored).mp matched)
  have ready := (List.mem_filter.mp candidate).2
  rw [MessageRow.ready, Bool.and_eq_true, Bool.and_eq_true, decide_eq_true_eq,
    decide_eq_true_eq] at ready
  exact ⟨newer, entry, older, store, split, rfl,
    ⟨stored, isStored, rfl, ready.1.1, now, instant, ready.1.2, exists_reading read⟩,
    _, taken, rfl, rfl, rfl, rfl⟩

/-- The dispatcher's claim takes the row that it has selected, if that stands. -/
theorem takenReady_one {newer : List Entry} {lease : String} {visibleAgain : Nat}
    {changed : List MessageRow} (selection : Selection)
    (split : pool.history = newer ++ entry :: older) (asked :
      entry.exchange =
        ⟨.sql (.update selection.store (.claimOne lease visibleAgain selection.row.id)),
          .ok changed⟩)
    (effect : Effect entry.before entry.request entry.answer entry.after)
    (read : (⟨.access .now, selection.now⟩ : Exchange Action Reply) ∈ ownPath entry.thread older)
    (selected : selectedOn (ownPath entry.thread older) = some selection)
    (stands : selection.Stands entry.before) (found : changed ≠ []) :
    TakenReady pool entry.thread (selection.row.claimed lease (selection.row.attempts + 1)) := by
  have instant : askedAt (ownPath entry.thread older) entry.request = some selection.now := by
    have isOne : entry.request = _ := congrArg Exchange.request asked
    rw [isOne, askedAt, selected]
    rfl
  obtain ⟨row, returned⟩ := List.exists_mem_of_ne_nil changed found
  obtain ⟨picked, _, stored, isStored, matched, rfl, taken⟩ :=
    changed_of_returned asked effect returned
  rw [Update.guard, Bool.and_eq_true, decide_eq_true_eq, decide_eq_true_eq] at matched
  have ready := stands.1
  rw [MessageRow.ready, Bool.and_eq_true, decide_eq_true_eq, decide_eq_true_eq] at ready
  have same := stands.2 stored isStored matched.1 matched.2
  rw [same] at isStored taken
  exact ⟨newer, entry, older, selection.store, split, rfl,
    ⟨selection.row, isStored, rfl, ready.1, _, instant, ready.2, exists_reading read⟩,
    _, taken, rfl, rfl, rfl, rfl⟩

end Readiness

/-- **Claims take ready messages.**  Whatever is stored, for every interleaving of claims
with calls that put claimed messages back, in which no message is put back while another
claim has selected it and not yet tried to take it: every message that a claim returns was
pending and ready when it was taken, and has the attempts that the row then got. -/
theorem claims_take_ready (validJson : String → Bool) (initial : Database)
    (events : List BrokerEvent) (pool : Broker)
    (domain : ∀ call, .spawn call ∈ events → call.Contends)
    (leaves :
      Along (Pool.step (databaseComponent validJson)) Readiness.LeavesSelected
        (Pool.start initial) events)
    (scheduled : schedule validJson initial events = some pool) :
    ∀ finished ∈ pool.finished, finished.call.Claims →
      ∀ messages, finished.result = .ok (.claimed messages) →
        ∀ message ∈ messages, Readiness.TakenReady pool finished.thread message := by
  intro finished returned claims messages result message member
  have standing := Readiness.standing_schedule domain leaves scheduled
  have took :=
    (Pool.accounted_replay (fun call => call.took_body validJson)
      scheduled).finished finished returned claims messages result message member
  obtain ⟨newer, exchange, older, split, taken⟩ := took
  obtain ⟨after, entry, before, whole, own, asked, path⟩ := exists_split_of_ownPath split
  have listed : entry ∈ pool.history := by
    rw [whole]
    exact List.mem_append_right _ (.head _)
  have effect := (trace_of_schedule scheduled).effect_of_mem listed
  rw [← own] at path ⊢
  cases taken with
  | batch _ _ _ _ _ _ _ _ _ read isReturned same =>
    subst same path
    exact Readiness.takenReady_batch whole asked effect read isReturned
  | one store _ _ now _ _ row _ found same =>
    subst same
    have selected : selectedOn (ownPath entry.thread before) = some ⟨store, now, row⟩ := by
      rw [path]
      rfl
    refine Readiness.takenReady_one ⟨store, now, row⟩ whole asked effect ?_ selected
      (standing.acted after entry before whole _ selected) found
    rw [path]
    exact .tail _ (.tail _ (.head _))

namespace Readiness

instance (db : Database) (store : Store) (id : String) :
    (request : Action) → Decidable (PutsBack db store id request) := by
  intro request
  unfold PutsBack
  split <;> infer_instance

/-- Test that a step leaves the selected messages to their claims. -/
def leavesCheck (pool : Broker) : BrokerEvent → Bool
  | .advance thread _ =>
    (pool.next? thread).all fun request =>
      (List.range pool.fresh).all fun other =>
        decide (other = thread) || (selectedOn (ownPath other pool.history)).all fun selection =>
            !decide (PutsBack pool.shared selection.store selection.row.id request)
  | _ => true

theorem leavesSelected_of_check {pool : Broker} {event : BrokerEvent}
    (accounted : Pool.Accounted Call.May (fun _ _ _ => True) pool)
    (checked : leavesCheck pool event = true) : LeavesSelected pool event := by
  cases event with
  | advance =>
    intro request asked _ other selection different isRunning selected
    rw [leavesCheck, asked, Option.all_some, List.all_eq_true] at checked
    obtain ⟨running, found⟩ := Option.isSome_iff_exists.mp isRunning
    have spared := checked other (List.mem_range.mpr (accounted.runningBelow found))
    rw [selected, decide_eq_false different, Bool.false_or, Option.all_some,
      Bool.not_eq_true', decide_eq_false_iff_not] at spared
    exact spared
  | spawn => trivial
  | crash => trivial

/-- The dispatcher looks at the shard of the stored messages first. -/
def dispatching : Database :=
  { backlog with turn := 13 }

/-- While the dispatcher has selected one message, another consumer takes a different one
and fails. -/
def failsBeside : List BrokerEvent :=
  [.spawn (.claimNextExcluding second []), .advance 0 {}, .advance 0 { clock := 9 },
    .advance 0 { order := ["s13-c"] },
    .spawn (.claimBatchForTopic "jobs" second 1), .advance 1 { clock := 9 },
    .advance 1 { uuid := "lease-1" }, .advance 1 { order := ["s13-b"] },
    .spawn (.failed "s13-b" "lease-1" "refused" 5), .advance 2 {},
    .advance 2 { clock := 10 }, .advance 2 {},
    .advance 0 { uuid := "lease-2" }, .advance 0 {}]

end Readiness

theorem claims_take_ready_failsBeside : ∃ pool,
    schedule (fun _ => true) Readiness.dispatching Readiness.failsBeside = some pool ∧
      (∃ finished ∈ pool.finished, finished.thread = 0 ∧
        finished.result = .ok (.claimed [⟨"s13-c", "z", [106], "\x7b\x7d", 1, "lease-2", 1⟩])) ∧
      ∀ finished ∈ pool.finished, finished.call.Claims →
        ∀ messages, finished.result = .ok (.claimed messages) →
          ∀ message ∈ messages, Readiness.TakenReady pool finished.thread message := by
  have checked : checkAlong (Pool.step (databaseComponent fun _ => true))
      Readiness.leavesCheck (Pool.start Readiness.dispatching)
      Readiness.failsBeside = true := by
    decide +kernel
  have ready := fun pool =>
    claims_take_ready (fun _ => true) Readiness.dispatching Readiness.failsBeside pool
      (fun call started => ?_) ?_
  · refine (exists_some_of_check ?_).imp fun pool reached =>
      ⟨reached.1, reached.2, ready pool reached.1⟩
    decide +kernel
  · simp only [Readiness.failsBeside, List.mem_cons, PoolEvent.spawn.injEq,
      reduceCtorEq, false_or, List.not_mem_nil, or_false] at started
    rcases started with rfl | rfl | rfl <;> trivial
  · exact
    along_of_check_of_invariant
      (Pool.accounted_step fun call => call.behaves_body _ [] trivial)
      (fun _ _ accounted => Readiness.leavesSelected_of_check accounted)
      (Pool.accounted_start _) checked

/-- While the dispatcher has selected a message, another consumer takes the same one and
fails. -/
def Readiness.failsBetween : List BrokerEvent :=
  [.spawn (.claimNextExcluding second []), .advance 0 {}, .advance 0 { clock := 9 },
    .advance 0 { order := ["s13-c"] },
    .spawn (.claimBatchForTopic "z" second 1), .advance 1 { clock := 9 },
    .advance 1 { uuid := "lease-1" }, .advance 1 { order := ["s13-c"] },
    .spawn (.failed "s13-c" "lease-1" "refused" 5), .advance 2 {},
    .advance 2 { clock := 10 }, .advance 2 {},
    .advance 0 { uuid := "lease-2" }, .advance 0 {}]

/-- Test that no row of the run was taken under the lease of a message with its
attempts. -/
def Readiness.differsCheck (pool : Broker) (message : ClaimedMessage) : Bool :=
  pool.history.all fun entry =>
    (Store.control :: allShards.map Store.shard).all fun store =>
      (entry.after.messages store).rows.all fun taken =>
        decide (taken.lease = some message.lease → taken.attempts ≠ message.attempts)

theorem Readiness.not_takenReady_of_check {pool : Broker} {thread : Nat}
    {message : ClaimedMessage} (checked : differsCheck pool message = true) :
    ¬ TakenReady pool thread message := by
  rintro ⟨newer, entry, older, store, split, _, _, taken, isTaken, _, _, leased, same⟩
  have listed : entry ∈ pool.history := by
    rw [split]
    exact List.mem_append_right _ (.head _)
  have inStore : store ∈ Store.control :: allShards.map Store.shard := by
    cases store with
    | control => exact .head _
    | shard index => exact .tail _ (List.mem_map_of_mem (List.mem_finRange index))
  simp only [differsCheck, List.all_eq_true, decide_eq_true_eq] at checked
  exact checked entry listed store inStore taken isTaken leased same

/-- What the dispatcher of `failsBetween` returns. -/
def Readiness.retried : ClaimedMessage :=
  ⟨"s13-c", "z", [106], "\x7b\x7d", 1, "lease-2", 1⟩

/-- The dispatcher then takes the message before its retry is due by any clock of the run,
and returns it with too few attempts. -/
theorem claimNextExcluding_cuts_retry : ∃ pool,
    schedule (fun _ => true) Readiness.dispatching Readiness.failsBetween = some pool ∧
      ∃ finished ∈ pool.finished, finished.call.Claims ∧ ∃ message,
        finished.result = .ok (.claimed [message]) ∧
          ¬ Readiness.TakenReady pool finished.thread message ∧
          ∃ entry ∈ pool.history, entry.thread = finished.thread ∧
            ∃ row ∈ (entry.before.messages (.shard 13)).rows,
              (row.id = message.id ∧ row.status = .pending ∧ ∀ earlier ∈ pool.history,
                  (reading earlier.request earlier.answer).all (· < row.nextAttemptAt) = true) ∧
                ∃ taken ∈ (entry.after.messages (.shard 13)).rows,
                  taken.lease = some message.lease ∧ message.attempts < taken.attempts := by
  obtain ⟨pool, scheduled, finished, returned, asked, result, differs, taken⟩ : ∃ pool,
      schedule (fun _ => true) Readiness.dispatching Readiness.failsBetween = some pool ∧
        ∃ finished ∈ pool.finished, finished.call = .claimNextExcluding second [] ∧
          finished.result = .ok (.claimed [Readiness.retried]) ∧
          Readiness.differsCheck pool Readiness.retried = true ∧
          ∃ entry ∈ pool.history, entry.thread = finished.thread ∧
            ∃ row ∈ (entry.before.messages (.shard 13)).rows,
              (row.id = Readiness.retried.id ∧ row.status = .pending ∧
                ∀ earlier ∈ pool.history,
                  (reading earlier.request earlier.answer).all (· < row.nextAttemptAt) = true) ∧
                ∃ taken ∈ (entry.after.messages (.shard 13)).rows,
                  taken.lease = some Readiness.retried.lease ∧
                    Readiness.retried.attempts < taken.attempts :=
    exists_some_of_check (by decide +kernel)
  refine ⟨pool, scheduled, finished, returned, ?_, Readiness.retried, result,
    Readiness.not_takenReady_of_check differs, taken⟩
  rw [asked]
  exact trivial

end CanglingBroker
