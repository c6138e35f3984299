import CanglingBroker.Foundation.Triple
import CanglingBroker.Database.Calls

/-!
# What each call may write

`Call.Allows` says which statements on message tables each call of `Database`
can run, and `Grounded` what the call must have seen before it runs one: a claim
uses the identifier it has just drawn, `failed` decides by the row it has just
read, and the migration copies rows it has read.  `Call.behaves_body` proves both for
every call.
-/

namespace CanglingBroker

open Foundation
open Program (Guided Grows guided_pure guided_throw guided_exceptBind
  guided_map guided_tryCatch guided_ask guided_bind guided_done Triple Ends
  triple_exceptBind)

abbrev Path : Type := List (Exchange Action Reply)

/-! ## Rules for single actions and loops -/

namespace Db

variable {known : Path → Prop} {before : Path → Action → Prop} {Item Result : Type}
  {after : Path → Except DbError Result → Prop}

theorem ensures_access {path : Path}
    {accessed : Access} {continuation : accessed.Answer → Db Result} :
    Program.Ensures before after path (access accessed >>= continuation).run ↔
      before path (.access accessed) ∧ ∀ answer : accessed.Answer,
          Program.Ensures before after
            (⟨.access accessed, answer⟩ :: path) (continuation answer).run := by
  rw [Program.ensures_exceptBind]
  exact Iff.rfl

theorem ensures_sql {path : Path} {statement : Sql}
    {continuation : statement.Answer → Db Result} :
    Program.Ensures before after path (sql statement >>= continuation).run ↔
      before path (.sql statement) ∧ (∀ answer : statement.Answer,
          Program.Ensures before after
            (⟨.sql statement, Except.ok answer⟩ :: path)
            (continuation answer).run) ∧
        ∀ problem, after (⟨.sql statement, Except.error problem⟩ :: path) (.error problem) := by
  rw [Program.ensures_exceptBind]
  constructor
  · rintro ⟨asked, onward⟩
    exact ⟨asked, fun answer => onward (.ok answer), fun problem => onward (.error problem)⟩
  · rintro ⟨asked, onward, failing⟩
    refine ⟨asked, fun outcome => ?_⟩
    cases outcome with
    | ok answer => exact onward answer
    | error problem => exact failing problem

theorem guided_sql (grows : Grows known) {statement : Sql}
    (asked : ∀ path, known path → before path (.sql statement)) :
    Guided known before (sql statement).run :=
  guided_ask grows asked

theorem guided_access (grows : Grows known) {accessed : Access}
    (asked : ∀ path, known path → before path (.access accessed)) :
    Guided known before (access accessed).run :=
  guided_bind (guided_ask grows asked) fun _ => guided_done _

theorem guided_forEach {body : Item → Db Result} : ∀ {items : List Item},
    (∀ item ∈ items, Guided known before (body item).run) →
      Guided known before (forEach body items).run
  | [], _ => guided_pure _
  | item :: _, each =>
    guided_exceptBind (each item (.head _)) fun _ =>
      guided_exceptBind
        (guided_forEach fun other member => each other (List.mem_cons_of_mem item member))
        fun _ => guided_pure _

/-- A loop collects one result per element, each as its own call left it. -/
theorem ensures_forEach {body : Item → Db Result} {fits : Item → Result → Prop} :
    ∀ {items : List Item},
      (∀ item ∈ items, ∀ path,
        Program.Ensures before
          (fun _ outcome => ∀ result, outcome = .ok result → fits item result) path
          (body item).run) →
        ∀ path, Program.Ensures before
            (fun _ outcome => ∀ results, outcome = .ok results → List.Forall₂ fits items results)
            path (forEach body items).run
  | [], _, path => by
    rintro results ⟨⟩
    exact .nil
  | item :: rest, each, path => by
    rw [forEach, Program.ensures_exceptBind]
    refine (each item (.head _) path).weaken fun reached outcome first => ?_
    cases outcome with
    | error => nofun
    | ok result =>
      have later :=
        ensures_forEach (fun other member => each other (List.mem_cons_of_mem item member)) reached
      refine Program.ensures_exceptBind.mpr (later.weaken fun _ outcome fit => ?_)
      cases outcome with
      | error => nofun
      | ok results =>
        rintro _ ⟨⟩
        exact .cons (first result rfl) (fit results rfl)

theorem guided_firstSome {body : Item → Db (Option Result)} : ∀ {items : List Item},
    (∀ item ∈ items, Guided known before (body item).run) →
      Guided known before (firstSome body items).run
  | [], _ => guided_pure _
  | item :: _, each => by
    refine guided_exceptBind (each item (.head _)) fun found => ?_
    cases found with
    | some => exact guided_pure _
    | none =>
      exact guided_firstSome fun other member => each other (List.mem_cons_of_mem item member)

section Triples

variable {pre : Path → Prop} {fails : DbError → Path → Prop}

theorem triple_sql {statement : Sql} {post : statement.Answer → Path → Prop}
    (asked : ∀ path, pre path → before path (.sql statement))
    (answered :
      ∀ path (answer : statement.Answer), pre path →
        post answer (⟨.sql statement, .ok answer⟩ :: path))
    (failing :
      ∀ path problem, pre path → fails problem (⟨.sql statement, .error problem⟩ :: path)) :
    Triple before pre (sql statement).run (Ends fails post) := by
  refine fun path start => ⟨asked path start, fun outcome => ?_⟩
  cases outcome with
  | ok answer => exact answered path answer start
  | error problem => exact failing path problem start

theorem triple_access {accessed : Access} {post : accessed.Answer → Path → Prop}
    (asked : ∀ path, pre path → before path (.access accessed))
    (answered :
      ∀ path (answer : accessed.Answer), pre path →
        post answer (⟨.access accessed, answer⟩ :: path)) :
    Triple before pre (access accessed).run (Ends fails post) :=
  fun path start => ⟨asked path start, fun answer => answered path answer start⟩

theorem triple_forEach {body : Item → Db Result} {invariant : List Item → Path → Prop} :
    ∀ {items seen : List Item},
      (∀ item ∈ items, ∀ seen,
        Triple before (invariant seen) (body item).run
          (Ends fails fun _ => invariant (seen ++ [item]))) →
        Triple before (invariant seen) (forEach body items).run
          (Ends fails fun _ => invariant (seen ++ items))
  | [], seen, _ => by
    rw [List.append_nil]
    exact fun _ start => start
  | item :: rest, seen, each => by
    refine triple_exceptBind (each item (.head _) seen) fun first => ?_
    refine triple_exceptBind
      (triple_forEach fun other member => each other (List.mem_cons_of_mem item member))
      fun results => ?_
    rw [List.append_assoc, List.singleton_append]
    exact fun _ start => start

theorem triple_forEach_kept {body : Item → Db Result} {items : List Item}
    (each : ∀ item ∈ items, Triple before pre (body item).run (Ends fails fun _ => pre)) :
    Triple before pre (forEach body items).run (Ends fails fun _ => pre) := by
  let invariant : List Item → Path → Prop := fun _ => pre
  have loop : Triple before (invariant []) (forEach body items).run
      (Ends fails fun _ => invariant ([] ++ items)) :=
    triple_forEach fun item member _ => each item member
  exact loop

theorem triple_firstSome {body : Item → Db (Option Result)} {post : Result → Path → Prop} :
    ∀ {items : List Item},
      (∀ item ∈ items,
        Triple before pre (body item).run (Ends fails fun found => found.elim pre post)) →
        Triple before pre (firstSome body items).run (Ends fails fun found => found.elim pre post)
  | [], _ => fun _ start => start
  | item :: _, each => by
    refine triple_exceptBind (each item (.head _)) fun found => ?_
    cases found with
    | some => exact fun _ start => start
    | none =>
      exact triple_firstSome fun other member => each other (List.mem_cons_of_mem item member)

end Triples

end Db

/-! ## Writes of each call -/

namespace Call

def Claims : Call → Prop
  | .claimBatchForTopic .. | .claimBatchForFilter .. | .claimNextExcluding .. => True
  | _ => False

def Removes : Call → Prop
  | .clearTopicMessages _ | .purgeOlderThan _ | .purgeDeliveredOlderThan _
  | .purgeIdleEphemeral .. => True
  | _ => False

def Enqueues : Call → Prop
  | .enqueue .. | .enqueueBatch _ => True
  | _ => False

def acknowledged : Call → List (String × String)
  | .delivered id lease => [(id, lease)]
  | .deliveredBatch messages => messages
  | _ => []

/-- The `UPDATE`s of a call. -/
def Updates (call : Call) (store : Store) : Update → Prop
  | .dropPending topic => call = .dropPending topic ∧ store = .shard (topicShard topic)
  | .dropClaimed error id lease => call = .dropClaimed id lease error ∧ store ≠ .control
  | .reclaim _ => call = .reclaimStale ∧ store ≠ .control
  | .claimBatch _ _ _ topic _ => call.Claims ∧ store = .shard (topicShard topic)
  | .claimOne .. => call.Claims ∧ store ≠ .control
  | .release _ id lease => call = .release id lease ∧ store ≠ .control
  | .renew _ id lease _ => (∃ visibility, call = .renewClaim id lease visibility) ∧ store ≠ .control
  | .deliver .. => False
  | .fail _ _ error id lease =>
    (∃ maxAttempts, call = .failed id lease error maxAttempts) ∧ store ≠ .control
  | .recover => call = .connect

/-- The call reads or writes what topics are configured to. -/
def Configures : Call → Prop
  | .topicConfig _ | .noteSubscribedTopic _ | .configureTopics _
  | .purgeIdleEphemeral .. => True
  | _ => False

/-- The writes of a call on message tables, and on what topics are configured
to. -/
def Allows (call : Call) : Action → Prop
  | .sql (.update store statement) => call.Updates store statement
  | .sql (.deliver store _ group) => (∀ pair ∈ group, pair ∈ call.acknowledged) ∧ store ≠ .control
  | .sql (.enqueue store group) =>
    call.Enqueues ∧ ∀ item ∈ group, store = .shard (topicShard item.1.topic)
  | .sql (.copy store row) => call = .connect ∧ store = .shard (topicShard row.topic)
  | .sql (.remove store _) => call.Removes ∧ store ≠ .control
  | .sql (.stats (.noteSubscribed ..)) | .sql (.stats (.configure ..))
  | .sql (.deleteIdle _) | .access (.cacheInsert ..)
  | .access (.cacheRemove _) => call.Configures
  | .sql (.stats .demoteExact) | .access (.openCache _) => call = .connect
  | _ => True

def Harmless : Action → Prop
  | .sql (.update ..) | .sql (.deliver ..) | .sql (.enqueue ..)
  | .sql (.copy ..) | .sql (.remove ..) => False
  | _ => True

/-- It does not change what a topic is configured to either. -/
def Ordinary : Action → Prop
  | .sql (.stats (.noteSubscribed ..)) | .sql (.stats (.configure ..))
  | .sql (.deleteIdle _) | .access (.cacheInsert ..)
  | .access (.cacheRemove _) | .sql (.stats .demoteExact)
  | .access (.openCache _) => False
  | request => Harmless request

theorem Allows.of_ordinary {call : Call} {request : Action} (ordinary : Ordinary request) :
    call.Allows request := by
  unfold Ordinary Harmless at ordinary
  unfold Allows
  split at ordinary
  all_goals first | exact ordinary.elim | skip
  split at ordinary <;> simp_all

end Call

def Recovered (path : Path) : Prop :=
  ∃ affected : List MessageRow,
    (⟨.sql (.update .control .recover), .ok affected⟩ : Exchange Action Reply) ∈ path

/-- The call has then listed the rows of the control file, and the row is one of
them under its new identifier. -/
def CopiedFrom (path : Path) (row : MessageRow) : Prop :=
  ∃ (rows : List MessageRow) (source : MessageRow) (newer older : Path),
    path = newer ++ ⟨.sql (.selectAll .control), .ok rows⟩ :: older ∧
      Recovered older ∧ source ∈ rows ∧
      row = { source with id := Db.migratedId source }

/-- What the path of a call must hold before it runs a statement. -/
def Grounded (call : Call) (path : Path) : Action → Prop
  | .sql (.update _ (.claimBatch lease _ _ _ _))
  | .sql (.update _ (.claimOne lease _ _)) => ∃ older, path = ⟨.access .newUuid, lease⟩ :: older
  | .sql (.update store (.fail status _ error id lease)) =>
    ∃ row : MessageRow, ∃ maxAttempts,
      (⟨.sql (.selectHeld store id lease), .ok (some row)⟩ : Exchange Action Reply) ∈ path ∧
        call = .failed id lease error maxAttempts ∧
        status = verdict row.attempts maxAttempts
  | .sql (.copy _ row) => CopiedFrom path row
  | _ => True

def Call.May (call : Call) (path : Path) (request : Action) : Prop :=
  call.Allows request ∧ Grounded call path request

theorem Call.may_of_ordinary (call : Call) (path : Path) (request : Action)
    (ordinary : Call.Ordinary request) : call.May path request := by
  refine ⟨Call.Allows.of_ordinary ordinary, ?_⟩
  unfold Call.Ordinary Call.Harmless at ordinary
  unfold Grounded
  split <;> simp_all

/-! ## Helpers that write no message -/

namespace Db

section Quiet

variable {known : Path → Prop} {before : Path → Action → Prop}
  (grows : Grows known)
  (ordinary : ∀ path request, Call.Ordinary request → before path request) (topic : String)

include grows ordinary

theorem guided_shardIndexForId (id : String) : Guided known before (shardIndexForId id).run := by
  unfold shardIndexForId
  split
  · exact guided_pure _
  · refine guided_firstSome fun shard _ => ?_
    exact guided_exceptBind
      (guided_sql grows fun path _ => ordinary path _ trivial)
      fun _ => guided_pure _

theorem guided_stats {statement : StatsUpdate} (counts : Call.Ordinary (.sql (.stats statement))) :
    Guided known before (sql (.stats statement)).run :=
  guided_sql grows fun path _ => ordinary path _ counts

theorem guided_now : Guided known before (access .now).run :=
  guided_access grows fun path _ => ordinary path _ trivial

theorem guided_bumpTopicStat (accepted duplicates delivered failed : Int) :
    Guided known before (bumpTopicStat topic accepted duplicates delivered failed).run :=
  guided_exceptBind (guided_now grows ordinary) fun _ =>
    guided_stats grows ordinary trivial

theorem guided_bumpDropped (dropped : Int) :
    Guided known before (bumpDropped topic dropped).run :=
  guided_exceptBind (guided_now grows ordinary) fun _ =>
    guided_stats grows ordinary trivial

theorem guided_recordTallies (entries : List (String × TopicStatsDelta)) :
    Guided known before (recordTallies entries).run := by
  refine guided_exceptBind (guided_forEach fun entry _ => ?_) fun _ => guided_pure _
  exact guided_access grows fun path _ => ordinary path _ trivial

theorem guided_flushTopicStats : Guided known before flushTopicStats.run := by
  unfold flushTopicStats
  refine guided_exceptBind
    (guided_access grows fun path _ => ordinary path _ trivial)
    fun pending => ?_
  split
  · exact guided_pure _
  · refine guided_exceptBind (guided_now grows ordinary) fun now => ?_
    refine guided_tryCatch ?_ fun problem => ?_
    · exact guided_exceptBind (guided_stats grows ordinary trivial) fun _ => guided_pure _
    · exact
        guided_exceptBind
          (guided_access grows fun path _ => ordinary path _ trivial)
          fun _ => guided_throw _

theorem guided_resetTopicStats (filter : String) :
    Guided known before (resetTopicStats filter).run := by
  unfold resetTopicStats
  refine guided_exceptBind (guided_sql grows fun path _ => ordinary path _ trivial) fun names => ?_
  refine guided_exceptBind (guided_forEach fun name _ => ?_) fun _ => guided_pure _
  split
  · exact guided_stats grows ordinary trivial
  · exact guided_pure _

theorem guided_acceptDropped : Guided known before (acceptDropped topic).run :=
  guided_exceptBind
    (guided_access grows fun path _ => ordinary path _ trivial) fun _ =>
      guided_exceptBind (guided_bumpTopicStat grows ordinary _ _ _ _ _) fun _ =>
        guided_exceptBind (guided_bumpDropped grows ordinary _ _) fun _ =>
          guided_pure _

theorem guided_registerConsumer (consumerId : Option String) (topic name attributes : String) :
    Guided known before (registerConsumer consumerId topic name attributes).run := by
  unfold registerConsumer
  refine guided_exceptBind (guided_now grows ordinary) fun now => ?_
  split
  · refine
      guided_exceptBind (guided_sql grows fun path _ => ordinary path _ trivial) fun updated => ?_
    split
    · exact guided_pure _
    · exact
        guided_exceptBind
          (guided_sql grows fun path _ => ordinary path _ trivial)
          fun _ => guided_pure _
  · refine
      guided_exceptBind
        (guided_access grows fun path _ => ordinary path _ trivial)
        fun id => ?_
    exact guided_exceptBind (guided_sql grows fun path _ => ordinary path _ trivial)
      fun _ => guided_pure _

theorem guided_touchConsumer (id : String) : Guided known before (touchConsumer id).run :=
  guided_exceptBind (guided_now grows ordinary) fun _ =>
    guided_exceptBind (guided_sql grows fun path _ => ordinary path _ trivial)
      fun _ => guided_pure _

theorem guided_unregisterConsumer (id : String) : Guided known before (unregisterConsumer id).run :=
  guided_exceptBind (guided_sql grows fun path _ => ordinary path _ trivial) fun _ => guided_pure _

end Quiet

end Db

/-! ## The calls that write messages -/

/-- A call's program makes only the requests the call may make. -/
def Call.Behaves {Result : Type} (call : Call) (program : Db Result) : Prop :=
  Guided (fun _ => True) call.May program.run

namespace Db

variable {call : Call} {validJson : String → Bool}

theorem grows_true : Grows (fun _ : Path => True) := fun _ _ _ => trivial

private theorem behaves_ordinary {statement : Sql} (ordinary : Call.Ordinary (.sql statement)) :
    call.Behaves (sql statement) :=
  guided_sql grows_true fun path _ => call.may_of_ordinary path _ ordinary

private theorem behaves_now : call.Behaves (access .now) :=
  guided_now grows_true call.may_of_ordinary

theorem behaves_topicConfig (configures : call.Configures) (topic : String) :
    call.Behaves (topicConfig topic) := by
  unfold topicConfig
  refine guided_exceptBind
    (guided_access grows_true fun path _ => call.may_of_ordinary path _ trivial)
    fun cached => ?_
  split
  · exact guided_pure _
  · refine guided_exceptBind (behaves_ordinary trivial) fun row => ?_
    exact guided_exceptBind
      (guided_access grows_true fun _ _ => ⟨configures, trivial⟩)
      fun _ => guided_pure _

theorem behaves_noteSubscribedTopic (configures : call.Configures) (topic : String) :
    call.Behaves (noteSubscribedTopic topic) :=
  guided_exceptBind behaves_now fun _ =>
    guided_exceptBind (guided_sql grows_true fun _ _ => ⟨configures, trivial⟩)
      fun _ => guided_access grows_true fun _ _ => ⟨configures, trivial⟩

theorem behaves_configureTopics (configures : call.Configures) (configs : List TopicConfig) :
    call.Behaves (configureTopics configs) := by
  refine guided_exceptBind (guided_forEach fun config _ => ?_) fun _ => behaves_ordinary trivial
  exact guided_exceptBind behaves_now fun _ =>
    guided_exceptBind (guided_sql grows_true fun _ _ => ⟨configures, trivial⟩)
      fun _ => guided_access grows_true fun _ _ => ⟨configures, trivial⟩

theorem behaves_claimBatchForTopic (claims : call.Claims) (topic : String)
    (visibility limit : Nat) :
    call.Behaves (claimBatchForTopic validJson topic visibility limit) := by
  intro path _
  unfold claimBatchForTopic
  rw [ensures_access]
  refine ⟨call.may_of_ordinary _ _ trivial, fun now => ?_⟩
  rw [ensures_access]
  refine ⟨call.may_of_ordinary _ _ trivial, fun lease => ?_⟩
  split
  · exact trivial
  · rw [ensures_sql]
    refine ⟨⟨⟨claims, rfl⟩, ⟨_, rfl⟩⟩, fun rows => ?_, fun _ => trivial⟩
    split
    · exact trivial
    · exact trivial

theorem behaves_claimBatchForFilter (claims : call.Claims) (filter : String)
    (visibility limit : Nat) :
    call.Behaves (claimBatchForFilter validJson filter visibility limit) := by
  unfold claimBatchForFilter
  split
  · exact behaves_claimBatchForTopic claims filter visibility limit
  · refine
      guided_exceptBind
        (guided_access grows_true fun path _ => call.may_of_ordinary path _ trivial)
        fun start => ?_
    refine guided_exceptBind ?_ fun _ => guided_pure _
    refine guided_firstSome fun shard _ => ?_
    refine guided_exceptBind behaves_now fun now => ?_
    refine guided_exceptBind (behaves_ordinary trivial) fun topics => ?_
    refine guided_firstSome fun topic _ => ?_
    unfold claimFrom
    split
    · refine
        guided_exceptBind
          (behaves_claimBatchForTopic claims topic visibility limit)
          fun messages => ?_
      split
      · exact guided_pure _
      · exact guided_pure _
    · exact guided_pure _

theorem behaves_finishClaim (claims : call.Claims) (shard : ShardIndex) (now visibility : Nat)
    (row : Option MessageRow) :
    call.Behaves (finishClaim validJson shard now visibility row) := by
  intro path _
  cases row with
  | none => exact trivial
  | some =>
    unfold finishClaim
    rw [ensures_access]
    refine ⟨call.may_of_ordinary _ _ trivial, fun lease => ?_⟩
    dsimp only
    split
    · exact trivial
    · rw [ensures_sql]
      refine ⟨⟨⟨claims, Store.noConfusion⟩, ⟨_, rfl⟩⟩, fun changed => ?_, fun _ => trivial⟩
      split
      · exact trivial
      · split
        · exact trivial
        · exact trivial

theorem behaves_claimNextExcluding (claims : call.Claims) (visibility : Nat)
    (skipTopics : List String) :
    call.Behaves (claimNextExcluding validJson visibility skipTopics) := by
  refine guided_exceptBind
    (guided_access grows_true fun path _ => call.may_of_ordinary path _ trivial)
    fun start => ?_
  refine guided_firstSome fun shard _ => ?_
  refine guided_exceptBind behaves_now fun now => ?_
  refine guided_exceptBind (behaves_ordinary trivial) fun row => ?_
  exact behaves_finishClaim claims shard now visibility row

theorem behaves_located {Result : Type} {continuation : Option ShardIndex → Db Result}
    (id : String) (missing : call.Behaves (continuation none))
    (onward : ∀ shard, call.Behaves (continuation (some shard))) :
    call.Behaves (shardIndexForId id >>= continuation) := by
  refine guided_exceptBind (guided_shardIndexForId grows_true call.may_of_ordinary id)
    fun found => ?_
  cases found with
  | none => exact missing
  | some shard => exact onward shard

theorem behaves_release (id lease : String) :
    (Call.release id lease).Behaves (release id lease) := by
  refine behaves_located id (guided_pure _) fun shard => ?_
  refine guided_exceptBind behaves_now fun now => ?_
  refine guided_exceptBind ?_ fun _ => guided_pure _
  exact guided_sql grows_true fun _ _ => ⟨⟨rfl, Store.noConfusion⟩, trivial⟩

theorem behaves_renewClaim (id lease : String) (visibility : Nat) :
    (Call.renewClaim id lease visibility).Behaves (renewClaim id lease visibility) := by
  refine behaves_located id (guided_pure _) fun shard => ?_
  refine guided_exceptBind behaves_now fun now => ?_
  split
  · exact guided_throw _
  · refine guided_exceptBind ?_ fun _ => guided_pure _
    exact guided_sql grows_true fun _ _ => ⟨⟨⟨visibility, rfl⟩, Store.noConfusion⟩, trivial⟩

theorem behaves_dropClaimed (id lease error : String) :
    (Call.dropClaimed id lease error).Behaves (dropClaimed id lease error) := by
  refine behaves_located id (guided_pure _) fun shard => ?_
  refine guided_exceptBind (behaves_ordinary trivial) fun held => ?_
  cases held with
  | none => exact guided_pure _
  | some =>
    refine guided_exceptBind ?_ fun dropped => ?_
    · exact
        guided_sql grows_true fun _ _ =>
          ⟨⟨rfl, Store.noConfusion⟩, trivial⟩
    · split
      · exact guided_pure _
      · exact
          guided_exceptBind
            (guided_bumpDropped grows_true (Call.may_of_ordinary _) _ _)
            fun _ => guided_pure _

theorem behaves_failed (id lease error : String) (maxAttempts : Int) :
    (Call.failed id lease error maxAttempts).Behaves (failed id lease error maxAttempts) := by
  refine behaves_located id (guided_pure _) fun shard => ?_
  intro path _
  rw [ensures_sql]
  refine ⟨Call.may_of_ordinary _ _ _ trivial, fun held => ?_, fun _ => trivial⟩
  cases held with
  | none => exact trivial
  | some row =>
    rw [ensures_access]
    refine ⟨Call.may_of_ordinary _ _ _ trivial, fun now => ?_⟩
    rw [ensures_sql]
    refine ⟨⟨⟨⟨maxAttempts, rfl⟩, Store.noConfusion⟩, row, maxAttempts,
      by simp, rfl, rfl⟩,
      fun ended => ?_, fun _ => trivial⟩
    split
    · exact trivial
    · split
      · refine guided_exceptBind ?_ (fun _ => guided_pure _) _ trivial
        exact guided_bumpTopicStat grows_true (Call.may_of_ordinary _) _ _ _ _ _
      · exact trivial

theorem behaves_deliverShard (now : Nat) (shard : ShardIndex) (group : List Ack)
    (given : ∀ ack ∈ group, (ack.id, ack.lease) ∈ call.acknowledged) :
    call.Behaves (deliverShard now shard group) := by
  unfold deliverShard
  split
  · exact guided_pure _
  · refine guided_exceptBind ?_ fun _ => guided_pure _
    refine guided_sql grows_true fun _ _ => ⟨⟨?_, Store.noConfusion⟩, trivial⟩
    intro pair member
    obtain ⟨ack, listed, rfl⟩ := List.mem_map.mp member
    exact given ack listed

theorem mem_groupOf {placed : List (Ack × Option ShardIndex)} {shard : ShardIndex} {ack : Ack} :
    ack ∈ groupOf placed shard ↔ (ack, some shard) ∈ placed := by
  simp [groupOf]

theorem behaves_deliveredBatch (messages : List (String × String))
    (given : ∀ pair ∈ messages, pair ∈ call.acknowledged) :
    call.Behaves (deliveredBatch messages) := by
  refine guided_exceptBind (guided_forEach fun ack _ => ?_) fun shards => ?_
  · exact guided_shardIndexForId grows_true call.may_of_ordinary ack.id
  refine guided_exceptBind behaves_now fun now => ?_
  refine guided_exceptBind (guided_forEach fun shard _ => ?_) fun ended => ?_
  · refine behaves_deliverShard now shard _ fun ack member => ?_
    obtain ⟨message, listed, same⟩ := List.mem_map.mp (List.of_mem_zip (mem_groupOf.mp member)).1
    rw [← same]
    exact given _ (List.fst_mem_of_mem_zipIdx listed)
  · exact
      guided_exceptBind
        (guided_recordTallies grows_true call.may_of_ordinary _)
        fun _ => guided_pure _

theorem behaves_dropPending (topic : String) :
    (Call.dropPending topic).Behaves (dropPending topic) := by
  refine guided_exceptBind ?_ fun rows => ?_
  · exact guided_sql grows_true fun _ _ => ⟨⟨rfl, rfl⟩, trivial⟩
  · split
    · exact
        guided_exceptBind
          (guided_bumpDropped grows_true (Call.may_of_ordinary _) _ _)
          fun _ => guided_pure _
    · exact guided_pure _

theorem behaves_reclaimStale : Call.reclaimStale.Behaves reclaimStale := by
  refine guided_exceptBind behaves_now fun now => ?_
  refine guided_exceptBind (guided_forEach fun shard _ => ?_) fun _ => guided_pure _
  refine guided_exceptBind ?_ fun _ => guided_pure _
  exact guided_sql grows_true fun _ _ => ⟨⟨rfl, Store.noConfusion⟩, trivial⟩

theorem behaves_enqueueBatch (enqueues : call.Enqueues) (items : List EnqueueInput) :
    call.Behaves (enqueueBatch items) := by
  refine guided_exceptBind (guided_forEach fun shard _ => ?_) fun stored => ?_
  · unfold enqueueShard
    split
    · exact guided_pure _
    · refine guided_exceptBind (guided_forEach fun _ _ => behaves_now) fun times => ?_
      refine guided_exceptBind ?_ fun _ => guided_pure _
      refine guided_sql grows_true fun _ _ => ⟨⟨enqueues, ?_⟩, trivial⟩
      intro item member
      obtain ⟨placed, kept, same⟩ := List.mem_map.mp (List.of_mem_zip member).1
      have sameShard := List.of_mem_filter kept
      rw [← same, of_decide_eq_true sameShard]
  · exact
      guided_exceptBind
        (guided_recordTallies grows_true call.may_of_ordinary _)
        fun _ => guided_pure _

theorem behaves_enqueue (enqueues : call.Enqueues) (idempotencyKey : Option String)
    (topic : String) (payload : List UInt8) (attributes : String) :
    call.Behaves (enqueue idempotencyKey topic payload attributes) := by
  refine guided_exceptBind
    (guided_access grows_true fun path _ => call.may_of_ordinary path _ trivial)
    fun uuid => ?_
  refine guided_exceptBind (behaves_enqueueBatch enqueues _) fun results => ?_
  split
  · exact guided_pure _
  · exact guided_throw _

theorem behaves_removeEverywhere (removes : call.Removes) (removal : Removal) :
    call.Behaves (removeEverywhere removal) := by
  refine guided_exceptBind (guided_forEach fun shard _ => ?_) fun _ => guided_pure _
  exact guided_sql grows_true fun _ _ => ⟨⟨removes, Store.noConfusion⟩, trivial⟩

theorem behaves_clearTopicMessages (removes : call.Removes) (filter : String) :
    call.Behaves (clearTopicMessages filter) := by
  refine guided_exceptBind (guided_flushTopicStats grows_true call.may_of_ordinary) fun _ => ?_
  refine guided_exceptBind ?_ fun deleted => ?_
  · unfold removeFiltered
    split
    · exact guided_sql grows_true fun _ _ => ⟨⟨removes, Store.noConfusion⟩, trivial⟩
    · refine guided_exceptBind (guided_forEach fun shard _ => ?_) fun _ => guided_pure _
      refine guided_exceptBind (behaves_ordinary trivial) fun rows => ?_
      refine guided_exceptBind (guided_forEach fun row _ => ?_) fun _ => guided_pure _
      split
      · exact
          guided_sql grows_true fun _ _ =>
            ⟨⟨removes, Store.noConfusion⟩, trivial⟩
      · exact guided_pure _
  · exact
      guided_exceptBind
        (guided_resetTopicStats grows_true call.may_of_ordinary filter)
        fun _ => guided_pure _

theorem behaves_purgeIdleEphemeral (removes : call.Removes) (configures : call.Configures)
    (cutoff : Nat) (keep : List String) :
    call.Behaves (purgeIdleEphemeral cutoff keep) := by
  refine guided_exceptBind (guided_flushTopicStats grows_true call.may_of_ordinary) fun _ => ?_
  refine guided_exceptBind (behaves_ordinary trivial) fun idle => ?_
  unfold purgeTopics
  split
  · exact guided_pure _
  · refine guided_exceptBind (guided_forEach fun topic _ => ?_) fun _ => ?_
    · exact guided_sql grows_true fun _ _ => ⟨⟨removes, Store.noConfusion⟩, trivial⟩
    · refine
        guided_exceptBind
          (guided_sql grows_true fun _ _ => ⟨configures, trivial⟩)
          fun deleted => ?_
      exact guided_exceptBind
        (guided_access grows_true fun _ _ => ⟨configures, trivial⟩)
        fun _ => guided_pure _

/-- The copies of the migration are of rows it has read, after the claims were
reset. -/
theorem guided_migrateLegacyMessages :
    Guided Recovered Call.connect.May migrateLegacyMessages.run := by
  have growsRecovered : Grows Recovered := by
    rintro path exchange ⟨affected, member⟩
    exact ⟨affected, List.mem_cons_of_mem exchange member⟩
  refine guided_exceptBind
    (guided_sql growsRecovered fun _ _ => Call.may_of_ordinary _ _ _ trivial)
    fun complete => ?_
  cases complete with
  | some => exact guided_pure _
  | none =>
    intro path recovered
    rw [ensures_sql]
    refine
      ⟨Call.may_of_ordinary _ _ _ trivial, fun rows => ?_, fun _ => growsRecovered _ _ recovered⟩
    -- from here on the answer stays on the path
    have grows : Grows fun reached : Path =>
        ∃ newer older, reached = newer ++ ⟨.sql (.selectAll .control), Except.ok rows⟩ :: older ∧
            Recovered older := by
      rintro reached exchange ⟨newer, older, shape, before⟩
      exact ⟨exchange :: newer, older, by rw [shape]; rfl, before⟩
    have read : Guided
        (fun reached : Path =>
          ∃ newer older, reached =
              newer ++ ⟨.sql (.selectAll .control), Except.ok rows⟩ :: older ∧
              Recovered older)
        Call.connect.May
        (do
          let _ ← forEach migrateRow rows
          sql (.recordMigration rows.length) : Db Unit).run := by
      refine guided_exceptBind (guided_forEach fun row listed => ?_) fun _ => ?_
      · refine guided_exceptBind ?_ fun _ => ?_
        · refine guided_sql grows ?_
          rintro reached ⟨newer, older, shape, before⟩
          exact ⟨⟨rfl, rfl⟩, rows, row, newer, older, shape, before, listed, rfl⟩
        · refine
            guided_exceptBind
              (guided_sql grows fun _ _ => Call.may_of_ordinary _ _ _ trivial)
              fun found => ?_
          cases found with
          | some => exact guided_pure _
          | none => exact guided_throw _
      · exact guided_sql grows fun _ _ => Call.may_of_ordinary _ _ _ trivial
    refine (read _ ⟨[], path, rfl, recovered⟩).weaken ?_
    rintro reached _ ⟨newer, older, rfl, affected, member⟩
    exact ⟨affected, List.mem_append_right newer (.tail _ member)⟩

theorem behaves_connect : Call.connect.Behaves connect := by
  have growsRecovered : Grows Recovered := by
    rintro path exchange ⟨affected, member⟩
    exact ⟨affected, List.mem_cons_of_mem exchange member⟩
  have quiet : ∀ {statement : Sql}, Call.Ordinary (.sql statement) →
      Guided Recovered Call.connect.May (sql statement).run :=
    fun ordinary =>
      guided_sql growsRecovered fun _ _ => Call.may_of_ordinary _ _ _ ordinary
  intro path _
  unfold connect
  rw [ensures_sql]
  refine ⟨⟨rfl, trivial⟩, fun affected => ?_, fun _ => trivial⟩
  have recovered : Recovered (⟨.sql (.update .control .recover), Except.ok affected⟩ :: path) :=
    ⟨affected, .head _⟩
  refine Guided.ensures recovered ?_
  refine guided_exceptBind (guided_forEach fun shard _ => ?_) fun _ => ?_
  · exact guided_sql growsRecovered fun _ _ => ⟨rfl, trivial⟩
  refine guided_exceptBind guided_migrateLegacyMessages fun _ => ?_
  refine guided_exceptBind (guided_now growsRecovered (Call.may_of_ordinary _)) fun now => ?_
  refine guided_exceptBind (quiet trivial) fun _ => ?_
  refine guided_exceptBind (guided_sql growsRecovered fun _ _ => ⟨rfl, trivial⟩) fun _ => ?_
  refine guided_exceptBind (quiet trivial) fun _ => ?_
  refine guided_exceptBind (quiet trivial) fun _ => ?_
  refine guided_exceptBind ?_ fun depths => ?_
  · exact
      guided_exceptBind (guided_forEach fun _ _ => quiet trivial) fun _ => guided_pure _
  refine guided_exceptBind (quiet trivial) fun _ => ?_
  refine guided_exceptBind (guided_forEach fun _ _ => quiet trivial) fun _ => ?_
  refine guided_exceptBind (quiet trivial) fun configs => ?_
  exact guided_access growsRecovered fun _ _ => ⟨rfl, trivial⟩

end Db

/-- Every call of `Database` makes only the requests it may make. -/
theorem Call.behaves_body (validJson : String → Bool) (call : Call) :
    call.Behaves (call.body validJson) := by
  have grows : Grows (fun _ : Path => True) := fun _ _ _ => trivial
  have ordinary := call.may_of_ordinary
  cases call with
  | connect => exact guided_map Db.behaves_connect
  | topicConfig topic => exact guided_map (Db.behaves_topicConfig (by exact trivial) topic)
  | noteSubscribedTopic topic =>
    exact guided_map (Db.behaves_noteSubscribedTopic (by exact trivial) topic)
  | configureTopics configs =>
    exact guided_map (Db.behaves_configureTopics (by exact trivial) configs)
  | listTopicConfigs | ephemeralTopics =>
    exact guided_map (Db.guided_sql grows fun path _ => ordinary path _ trivial)
  | flushTopicStats => exact guided_map (Db.guided_flushTopicStats grows ordinary)
  | registerConsumer =>
    exact guided_map (Db.guided_registerConsumer grows ordinary _ _ _ _)
  | touchConsumer id => exact guided_map (Db.guided_touchConsumer grows ordinary id)
  | unregisterConsumer id => exact guided_map (Db.guided_unregisterConsumer grows ordinary id)
  | purgeStaleConsumers =>
    exact guided_map (Db.guided_sql grows fun path _ => ordinary path _ trivial)
  | enqueue =>
    exact guided_map (Db.behaves_enqueue (by exact trivial) _ _ _ _)
  | enqueueBatch items => exact guided_map (Db.behaves_enqueueBatch (by exact trivial) items)
  | acceptDropped topic => exact guided_map (Db.guided_acceptDropped grows ordinary topic)
  | recordLiveFanout => exact guided_map (Db.guided_bumpTopicStat grows ordinary _ _ _ _ _)
  | claimBatchForTopic =>
    exact guided_map (Db.behaves_claimBatchForTopic (by exact trivial) _ _ _)
  | claimBatchForFilter =>
    exact guided_map (Db.behaves_claimBatchForFilter (by exact trivial) _ _ _)
  | claimNextExcluding =>
    exact guided_map (Db.behaves_claimNextExcluding (by exact trivial) _ _)
  | release id lease => exact guided_map (Db.behaves_release id lease)
  | renewClaim id lease visibility => exact guided_map (Db.behaves_renewClaim id lease visibility)
  | delivered =>
    refine guided_map (guided_exceptBind ?_ fun _ => guided_pure _)
    exact Db.behaves_deliveredBatch _ fun _ member => member
  | deliveredBatch => exact guided_map (Db.behaves_deliveredBatch _ fun _ member => member)
  | failed id lease error maxAttempts =>
    exact guided_map (Db.behaves_failed id lease error maxAttempts)
  | dropClaimed id lease error => exact guided_map (Db.behaves_dropClaimed id lease error)
  | dropPending topic => exact guided_map (Db.behaves_dropPending topic)
  | reclaimStale => exact guided_map Db.behaves_reclaimStale
  | clearTopicMessages filter =>
    exact guided_map (Db.behaves_clearTopicMessages (by exact trivial) filter)
  | purgeOlderThan | purgeDeliveredOlderThan =>
    exact guided_map (Db.behaves_removeEverywhere (by exact trivial) _)
  | purgeIdleEphemeral cutoff keep =>
    exact guided_map
      (Db.behaves_purgeIdleEphemeral (by exact trivial) (by exact trivial) cutoff keep)

end CanglingBroker
