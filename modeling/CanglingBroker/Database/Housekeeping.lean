import CanglingBroker.Database.TopicCache

/-!
# Housekeeping of ephemeral topics

`purge_idle_ephemeral`, the sweep of `retention_loop` and the end of `run_subscribe_loop`
first read which topics are ephemeral and then discard messages in another file.  A topic
that is made persistent in between loses its messages.
-/

namespace CanglingBroker

open Foundation
open Program (Ensures Guided Grows guided_exceptBind guided_pure guided_map guided_tryCatch)

namespace Db

def topicPersistence (topic : String) : Db PersistenceMode :=
  (·.persistence) <$> topicConfig topic

/-- One topic of the sweep of `retention_loop`; `covered` lists the topics some live
stream covers.  A failure is logged. -/
def sweepTopic (covered : List String) (topic : String) : Db Unit :=
  if topic ∈ covered then
    pure ()
  else
    tryCatch ((fun _ => ()) <$> dropPending topic) fun _ => pure ()

/-- The sweep of `retention_loop` over the ephemeral topics. -/
def ephemeralSweep (covered : List String) : Db Unit := do
  let topics ← tryCatch ephemeralTopics fun _ => pure []
  let _ ← forEach (sweepTopic covered) topics
  pure ()

/-- The end of `run_subscribe_loop`; `covered` says whether a live stream still
covers the topic. -/
def lastSubscriberLeft (topic : String) (covered : Bool) : Db Unit :=
  if isWildcardFilter topic || covered then
    pure ()
  else do
    let mode ← tryCatch (some <$> topicPersistence topic) fun _ => pure none
    if mode = some .ephemeral then
      tryCatch ((fun _ => ()) <$> dropPending topic) fun _ => pure ()
    else
      pure ()

end Db

/-- The calls of `Database`, and the two housekeeping paths outside it. -/
inductive HousekeepingCall where
  | database (call : Call)
  | ephemeralSweep (covered : List String)
  | lastSubscriberLeft (topic : String) (covered : Bool)
  deriving DecidableEq, Repr

namespace HousekeepingCall

def Housekeeps : HousekeepingCall → Prop
  | .database (.purgeIdleEphemeral ..) | .ephemeralSweep _
  | .lastSubscriberLeft .. => True
  | .database _ => False

instance : (call : HousekeepingCall) → Decidable call.Housekeeps
  | .ephemeralSweep _ | .lastSubscriberLeft .. => .isTrue trivial
  | .database call => by
    unfold Housekeeps
    split
    all_goals infer_instance

def body (validJson : String → Bool) : HousekeepingCall → Db Value
  | .database call => call.body validJson
  | .ephemeralSweep covered => (fun _ => .unit) <$> Db.ephemeralSweep covered
  | .lastSubscriberLeft topic covered => (fun _ => .unit) <$> Db.lastSubscriberLeft topic covered

end HousekeepingCall

/-- The calls of `Database` and the housekeeping paths over one state. -/
def housekeepingComponent (validJson : String → Bool) :
    Component HousekeepingCall Action Reply Database Choice Outcome where
  perform := perform
  crash := Database.restart
  program := fun call => (call.body validJson).run

abbrev Housekeeping : Type := Pool HousekeepingCall Action Reply Database Outcome

abbrev HousekeepingEvent : Type := PoolEvent HousekeepingCall Choice

abbrev HousekeepingEntry : Type := Performed HousekeepingCall Action Reply Database

/-! ## What a path has read -/

def ShowsEphemeral (topic : String) : Exchange Action Reply → Prop
  | ⟨.sql (.selectIdle _), .ok topics⟩ => topic ∈ topics
  | ⟨.sql .selectEphemeral, .ok topics⟩ => topic ∈ topics
  | ⟨.sql (.selectStats name), .ok row⟩ =>
    name = topic ∧
      ((Option.map (TopicStats.config topic) row).getD (.implicit topic)).persistence = .ephemeral
  | ⟨.access (.cacheGet name), some config⟩ => name = topic ∧ config.persistence = .ephemeral
  | _ => False

def TakesForEphemeral (path : Path) (topic : String) : Prop :=
  ∃ exchange ∈ path, ShowsEphemeral topic exchange

/-- A statement on messages is about a topic the path takes for ephemeral, and
removes or drops the messages of this topic alone. -/
def DiscardsOnly (path : Path) : Action → Prop
  | .sql (.update _ (.dropPending topic)) => TakesForEphemeral path topic
  | .sql (.remove _ (.ofTopic topic)) => TakesForEphemeral path topic
  | request => Call.Harmless request

theorem TakesForEphemeral.later {path : Path} {topic : String}
    (takes : TakesForEphemeral path topic) (exchange : Exchange Action Reply) :
    TakesForEphemeral (exchange :: path) topic := by
  obtain ⟨shown, member, ephemeral⟩ := takes
  exact ⟨shown, List.mem_cons_of_mem exchange member, ephemeral⟩

theorem discardsOnly_of_ordinary (path : Path) (request : Action)
    (ordinary : Call.Ordinary request) :
    DiscardsOnly path request := by
  cases request with
  | access => trivial
  | sql statement => cases statement <;> first | exact ordinary.elim | trivial

namespace Db

variable {known : Path → Prop}

theorem guided_dropPending (grows : Grows known) {topic : String}
    (takes : ∀ path, known path → TakesForEphemeral path topic) :
    Guided known DiscardsOnly (dropPending topic).run := by
  refine guided_exceptBind (guided_sql grows takes) fun rows => ?_
  split
  · exact
      guided_exceptBind
        (guided_bumpDropped grows discardsOnly_of_ordinary topic rows.length)
        fun _ => guided_pure _
  · exact guided_pure _

theorem guided_purgeTopics (grows : Grows known) {stale : List String}
    (takes : ∀ path, known path → ∀ topic ∈ stale, TakesForEphemeral path topic) :
    Guided known DiscardsOnly (purgeTopics stale).run := by
  unfold purgeTopics
  split
  · exact guided_pure _
  · refine guided_exceptBind (guided_forEach fun topic listed => ?_) fun _ => ?_
    · exact guided_sql grows fun path held => takes path held topic listed
    · refine guided_exceptBind (guided_sql grows fun _ _ => trivial) fun _ => ?_
      exact guided_exceptBind (guided_access grows fun _ _ => trivial) fun _ => guided_pure _

theorem ensures_purgeIdleEphemeral (cutoff : Nat) (keep : List String) :
    Ensures DiscardsOnly (fun _ _ => True) [] (purgeIdleEphemeral cutoff keep).run := by
  have grows : Grows fun _ : Path => True := fun _ _ _ => trivial
  unfold purgeIdleEphemeral
  rw [Program.ensures_exceptBind]
  refine (guided_flushTopicStats grows discardsOnly_of_ordinary [] trivial).weaken ?_
  intro path flushed _
  cases flushed with
  | error => trivial
  | ok =>
    refine ensures_sql.mpr ⟨trivial, fun idle => ?_, fun _ => trivial⟩
    have growsRead : Grows fun path : Path =>
        ∀ topic ∈ idle.filter (· ∉ keep), TakesForEphemeral path topic :=
      fun _ exchange read topic listed => (read topic listed).later exchange
    have guided := guided_purgeTopics growsRead fun _ read => read
    refine guided.ensures fun topic listed => ?_
    exact ⟨_, .head _, (List.mem_filter.mp listed).1⟩

theorem ensures_ephemeralSweep (covered : List String) :
    Ensures DiscardsOnly (fun _ _ => True) [] (ephemeralSweep covered).run := by
  unfold ephemeralSweep
  refine ⟨trivial, fun listed => ?_⟩
  cases listed with
  | error => trivial
  | ok topics =>
    have growsRead : Grows fun path : Path =>
        ∀ topic ∈ topics, TakesForEphemeral path topic :=
      fun _ exchange read topic listed => (read topic listed).later exchange
    have guided : Guided (fun path : Path => ∀ topic ∈ topics, TakesForEphemeral path topic)
        DiscardsOnly
        (forEach (sweepTopic covered) topics >>= fun _ => pure ()).run := by
      refine guided_exceptBind (guided_forEach fun topic listed => ?_) fun _ => guided_pure _
      unfold sweepTopic
      split
      · exact guided_pure _
      · refine guided_tryCatch (guided_map ?_) fun _ => guided_pure _
        exact guided_dropPending growsRead fun _ read => read topic listed
    exact guided.ensures fun topic listed => ⟨_, .head _, listed⟩

/-- The drop at the end of a subscribe loop, once the topic is taken for
ephemeral. -/
theorem ensures_dropLast {path : Path} {topic : String} (mode : PersistenceMode)
    (takes : mode = .ephemeral → TakesForEphemeral path topic) :
    Ensures DiscardsOnly (fun _ _ => True) path
      (if some mode = some PersistenceMode.ephemeral then
        tryCatch ((fun _ => ()) <$> dropPending topic) fun _ => pure ()
      else
        (pure () : Db Unit)).run := by
  split
  · next ephemeral =>
    have grows : Grows fun path : Path => TakesForEphemeral path topic :=
      fun _ exchange read => read.later exchange
    have guided : Guided (fun path : Path => TakesForEphemeral path topic) DiscardsOnly
        (tryCatch ((fun _ => ()) <$> dropPending topic) fun _ => pure () : Db Unit).run := by
      refine guided_tryCatch (guided_map ?_) fun _ => guided_pure ()
      exact guided_dropPending grows fun _ read => read
    exact guided.ensures (takes (Option.some.inj ephemeral))
  · trivial

theorem ensures_lastSubscriberLeft (topic : String) (covered : Bool) :
    Ensures DiscardsOnly (fun _ _ => True) [] (lastSubscriberLeft topic covered).run := by
  unfold lastSubscriberLeft
  split
  · trivial
  · refine ⟨trivial, fun cached => ?_⟩
    cases cached with
    | some config =>
      refine ensures_dropLast config.persistence fun ephemeral => ?_
      exact ⟨_, .head _, rfl, ephemeral⟩
    | none =>
      refine ⟨trivial, fun selected => ?_⟩
      cases selected with
      | error => trivial
      | ok =>
        refine ⟨trivial, fun _ => ?_⟩
        refine ensures_dropLast _ fun ephemeral => ?_
        exact ⟨_, .tail _ (.head _), rfl, ephemeral⟩

end Db

def HousekeepingCall.May (call : HousekeepingCall) (path : Path) (request : Action) : Prop :=
  call.Housekeeps → DiscardsOnly path request

theorem HousekeepingCall.ensures_body (validJson : String → Bool) (call : HousekeepingCall) :
    Ensures call.May (fun _ _ => True) [] (call.body validJson).run := by
  have housekeeping {Result : Type} {convert : Result → Value} {program : Db Result}
      (ensured : Ensures DiscardsOnly (fun _ _ => True) [] program.run) :
      Ensures call.May (fun _ _ => True) [] (convert <$> program).run :=
    Program.ensures_map (ensured.mono fun path request discards _ => discards)
  cases call with
  | ephemeralSweep covered => exact housekeeping (Db.ensures_ephemeralSweep covered)
  | lastSubscriberLeft topic covered =>
    exact housekeeping (Db.ensures_lastSubscriberLeft topic covered)
  | database call =>
    by_cases purges : (HousekeepingCall.database call).Housekeeps
    · cases call with
      | purgeIdleEphemeral cutoff keep =>
        exact housekeeping (Db.ensures_purgeIdleEphemeral cutoff keep)
      | _ => exact purges.elim
    · refine
        (Program.ensures_of_extends fun _ _ _ => trivial).mono fun path request _ housekeeps => ?_
      exact absurd housekeeps purges

/-! ## Quiet steps -/

def Database.Persistent (db : Database) (topic : String) : Prop :=
  (configOf db.topicStats topic).persistence = .persistent

instance (db : Database) (topic : String) : Decidable (db.Persistent topic) :=
  inferInstanceAs (Decidable (_ = _))

namespace Housekeeping

/-- A housekeeping path that takes the topic for ephemeral is under way. -/
def Holds (pool : Housekeeping) (thread : Nat) (topic : String) : Prop :=
  ∃ running, pool.threads thread = some running ∧ running.call.Housekeeps ∧
    TakesForEphemeral (ownPath thread pool.history) topic

/-- The step makes no topic persistent that a housekeeping path takes for
ephemeral, and no housekeeping path finds a persistent topic cached as
ephemeral. -/
def QuietStep (validJson : String → Bool) (pool : Housekeeping)
    (event : HousekeepingEvent) : Prop :=
  (∀ reached,
    Pool.step (housekeepingComponent validJson) pool event = some reached →
      ∀ topic, ¬ pool.shared.Persistent topic → reached.shared.Persistent topic →
        ∀ thread, ¬ Holds pool thread topic) ∧
    ∀ thread choice, event = .advance thread choice →
      ∀ running, pool.threads thread = some running → running.call.Housekeeps →
        ∀ topic config, pool.next? thread = some (.access (.cacheGet topic)) →
          pool.shared.cache.lookup topic = some config →
            config.persistence = .ephemeral → ¬ pool.shared.Persistent topic

/-- The step spares the messages of persistent topics: each of them is as it was
before. -/
def Spares (entry : HousekeepingEntry) : Prop :=
  ∀ store, ∀ row ∈ (entry.before.messages store).rows,
    entry.before.Persistent row.topic → row ∈ (entry.after.messages store).rows

/-- The invariant of quiet runs. -/
structure Safe (pool : Housekeeping) : Prop where
  held : ∀ thread topic, Holds pool thread topic → ¬ pool.shared.Persistent topic
  spared : ∀ entry ∈ pool.history, entry.call.Housekeeps → Spares entry

section Steps

variable {validJson : String → Bool} {pool reached : Housekeeping} {topic : String}

/-- A statement that discards only what is not persistent spares what is. -/
theorem spares_of_discardsOnly {entry : HousekeepingEntry} {choice : Choice} {path : Path}
    (performed : perform choice entry.before entry.request = some (entry.answer, entry.after))
    (discards : DiscardsOnly path entry.request)
    (ephemeral : ∀ topic, TakesForEphemeral path topic → ¬ entry.before.Persistent topic) :
    Spares entry := by
  intro store row stored persistent
  have effect := perform_effect performed
  have spared (topic : String) (takes : TakesForEphemeral path topic) : row.topic ≠ topic := by
    rintro rfl
    exact ephemeral row.topic takes persistent
  rcases effect.messages_cases store with same | written
  · rw [same]
    exact stored
  · generalize entry.request = request at written discards
    generalize entry.after.messages store = table at written ⊢
    cases written with
    | updated statement =>
      cases statement with
      | dropPending topic =>
        refine Update.mem_execute.mpr ⟨row, stored, ?_⟩
        rw [Update.rewrite, if_neg]
        simp [Update.guard, spared topic discards]
      | _ => exact discards.elim
    | removed removal =>
      cases removal with
      | ofTopic topic =>
        refine Table.mem_delete.mpr ⟨stored, ?_⟩
        simp [Removal.guard, spared topic discards]
      | _ => exact discards.elim
    | delivered | enqueued | copied => exact discards.elim

theorem not_persistent_of_row {db : Database} {row : TopicStats}
    (listed : (⟨topic, row⟩ : (_ : String) × TopicStats) ∈ db.topicStats.entries)
    (ephemeral : row.persistence = "ephemeral") : ¬ db.Persistent topic := by
  have found : db.topicStats.lookup topic = some row := AList.mem_lookup_iff.mpr listed
  unfold Database.Persistent configOf
  rw [found, Option.map_some, Option.getD_some]
  unfold TopicStats.config TopicConfig.fromColumns
  rw [ephemeral]
  change ¬ PersistenceMode.fromStored "ephemeral" = .persistent
  decide

/-- A reading that shows a topic as ephemeral finds it so, unless the cache is out
of date. -/
theorem not_persistent_of_shows {choice : Choice} {before after : Database} {request : Action}
    {answer : Reply request} (performed : perform choice before request = some (answer, after))
    (shows : ShowsEphemeral topic ⟨request, answer⟩) (cached :
      ∀ config, request = .access (.cacheGet topic) →
        before.cache.lookup topic = some config → config.persistence = .ephemeral →
          ¬ before.Persistent topic) :
    ¬ after.Persistent topic := by
  cases request with
  | access access =>
    cases access with
    | cacheGet name =>
      cases performed
      cases found : before.cache.lookup name with
      | none =>
        rw [found] at shows
        cases shows
      | some config =>
        rw [found] at shows
        obtain ⟨rfl, ephemeral⟩ := shows
        exact cached config rfl found ephemeral
    | _ => cases shows
  | sql statement =>
    simp only [perform] at performed
    split at performed
    · cases performed
      cases statement <;> cases shows
    · split at performed
      · cases performed
      · cases performed
        cases statement <;> cases shows
      · next result reached executed =>
        cases performed
        cases statement with
        | selectIdle cutoff =>
          simp only [Sql.execute] at executed
          split at executed <;> cases executed
          next order =>
            have member : topic ∈ idleTopics before cutoff := order.mem_iff.mp shows
            obtain ⟨entry, listed, rfl⟩ := List.mem_map.mp member
            obtain ⟨stored, passes⟩ := List.mem_filter.mp listed
            simp only [Bool.and_eq_true, decide_eq_true_eq] at passes
            exact not_persistent_of_row stored passes.1.1.1
        | selectEphemeral =>
          simp only [Sql.execute] at executed
          split at executed <;> cases executed
          next order =>
            have member : topic ∈ ephemeralRows before := order.mem_iff.mp shows
            obtain ⟨entry, listed, rfl⟩ := List.mem_map.mp member
            obtain ⟨stored, passes⟩ := List.mem_filter.mp listed
            rw [decide_eq_true_eq] at passes
            exact not_persistent_of_row stored passes
        | selectStats =>
          cases executed
          obtain ⟨rfl, ephemeral⟩ := shows
          unfold Database.Persistent configOf
          rw [ephemeral]
          decide
        | _ => cases shows

variable {event : HousekeepingEvent}

theorem Safe.stays (safe : Safe pool) (quiet : QuietStep validJson pool event)
    (stepped : Pool.step (housekeepingComponent validJson) pool event = some reached) {thread : Nat}
    (holds : Holds pool thread topic) :
    ¬ reached.shared.Persistent topic := fun persistent =>
  quiet.1 reached stepped topic (safe.held thread topic holds) persistent thread holds

theorem safe_step (accounted : Pool.Accounted HousekeepingCall.May (fun _ _ _ => True) pool)
    (safe : Safe pool) (quiet : QuietStep validJson pool event)
    (stepped : Pool.step (housekeepingComponent validJson) pool event = some reached) :
    Safe reached := by
  constructor
  · rintro thread topic ⟨running, found, housekeeps, takes⟩
    have older (before : pool.threads thread = some running)
        (takes : TakesForEphemeral (ownPath thread pool.history) topic) :
        ¬ reached.shared.Persistent topic :=
      safe.stays quiet stepped ⟨running, before, housekeeps, takes⟩
    rcases Pool.step_cases stepped with
      ⟨call, _, rfl⟩ | ⟨choice, moving, entry, next, rfl, acts, rfl⟩ | ⟨_, rfl⟩
    · rw [Pool.settle_history] at takes
      rcases Pool.settle_running found with ⟨rfl, _⟩ | ⟨_, before⟩
      · -- a new call has read nothing yet
        obtain ⟨exchange, member, _⟩ := takes
        simp only [accounted.ownPath_fresh, List.not_mem_nil] at member
      · exact older before takes
    · rw [Pool.settle_history] at takes
      rcases Pool.settle_running found with ⟨rfl, rfl⟩ | ⟨different, before⟩
      · obtain ⟨exchange, member, shows⟩ := takes
        rw [ownPath_cons_self, List.mem_cons] at member
        rcases member with rfl | earlier
        · rw [Pool.settle_shared]
          refine not_persistent_of_shows acts.performed shows fun config asked cached => ?_
          rw [acts.previous] at cached ⊢
          refine quiet.2 _ choice rfl moving acts.found housekeeps topic config ?_ cached
          rw [acts.next?, asked]
        · exact safe.stays quiet stepped ⟨moving, acts.found, housekeeps, exchange, earlier, shows⟩
      · rw [ownPath_cons_of_ne (Ne.symm different)] at takes
        exact older before takes
    · cases found
  · rcases Pool.step_cases stepped with
      ⟨call, _, rfl⟩ | ⟨choice, moving, entry, next, rfl, acts, rfl⟩ | ⟨_, rfl⟩
    · rw [Pool.settle_history]
      exact safe.spared
    · rw [Pool.settle_history]
      intro other member housekeeps
      rcases List.mem_cons.mp member with rfl | earlier
      · refine spares_of_discardsOnly acts.performed (acts.asks accounted housekeeps)
          fun topic takes => ?_
        rw [acts.previous]
        exact safe.held _ topic ⟨moving, acts.found, acts.sameCall ▸ housekeeps, takes⟩
      · exact safe.spared other earlier housekeeps
    · exact safe.spared

end Steps

end Housekeeping

/-- In every run whose steps are all quiet, no step of the three housekeeping paths
deletes or drops a message of a topic whose row says persistent at that step. -/
theorem housekeeping_sparesPersistent (validJson : String → Bool) (initial : Database)
    (events : List HousekeepingEvent) (pool : Housekeeping)
    (replayed : Pool.replay (housekeepingComponent validJson) initial events = some pool)
    (quiet :
      Along (Pool.step (housekeepingComponent validJson))
        (Housekeeping.QuietStep validJson) (Pool.start initial) events) :
    ∀ entry ∈ pool.history, entry.call.Housekeeps → Housekeeping.Spares entry := by
  have initially : Housekeeping.Safe (Pool.start initial) := by
    constructor
    · rintro thread topic ⟨running, found, _⟩
      cases found
    · intro entry member
      cases member
  have safe : Housekeeping.Safe pool :=
    Pool.invariant_along (fun call => call.ensures_body validJson) Housekeeping.safe_step
      initially quiet replayed
  exact safe.spared

namespace Housekeeping

def readsCache : Action → Bool
  | .access (.cacheGet _) => true
  | _ => false

def underWay (pool : Housekeeping) : List Nat :=
  (List.range pool.fresh).filter fun thread =>
    (pool.threads thread).any fun running => decide running.call.Housekeeps

/-- A test for quiet steps: while a housekeeping path is under way, no topic becomes
persistent and the path does not look into the cache. -/
def quietCheck (validJson : String → Bool) (pool : Housekeeping)
    (event : HousekeepingEvent) : Bool :=
  (underWay pool).isEmpty ||
    ((underWay pool).all fun thread => (pool.next? thread).all (!readsCache ·)) &&
      ((Pool.step (housekeepingComponent validJson) pool event).all
        fun reached =>
          reached.shared.topicStats.keys.all fun topic =>
            decide (reached.shared.Persistent topic → pool.shared.Persistent topic))

theorem mem_underWay {pool : Housekeeping}
    (accounted : Pool.Accounted HousekeepingCall.May (fun _ _ _ => True) pool)
    {thread : Nat} {running : Thread HousekeepingCall Action Reply Outcome}
    (found : pool.threads thread = some running) (housekeeps : running.call.Housekeeps) :
    thread ∈ underWay pool := by
  refine List.mem_filter.mpr ⟨List.mem_range.mpr (accounted.runningBelow found), ?_⟩
  rw [found, Option.any_some, decide_eq_true_eq]
  exact housekeeps

theorem mem_keys_of_persistent {db : Database} {topic : String} (persistent : db.Persistent topic) :
    topic ∈ db.topicStats.keys := by
  by_contra absent
  unfold Database.Persistent configOf at persistent
  rw [AList.lookup_eq_none.mpr (by simpa [AList.mem_keys] using absent)] at persistent
  cases persistent

theorem quiet_of_check {validJson : String → Bool} {pool : Housekeeping} {event : HousekeepingEvent}
    (accounted : Pool.Accounted HousekeepingCall.May (fun _ _ _ => True) pool)
    (checked : quietCheck validJson pool event = true) :
    QuietStep validJson pool event := by
  rw [quietCheck, Bool.or_eq_true, Bool.and_eq_true] at checked
  constructor
  · rintro reached stepped topic before after thread ⟨running, found, housekeeps, _⟩
    have there := mem_underWay accounted found housekeeps
    rcases checked with empty | ⟨_, kept⟩
    · rw [List.isEmpty_iff.mp empty] at there
      cases there
    · rw [stepped, Option.all_some, List.all_eq_true] at kept
      have same := kept topic (mem_keys_of_persistent after)
      rw [decide_eq_true_eq] at same
      exact before (same after)
  · intro thread choice _ running found housekeeps topic config asked
    have there := mem_underWay accounted found housekeeps
    rcases checked with empty | ⟨uncached, _⟩
    · rw [List.isEmpty_iff.mp empty] at there
      cases there
    · rw [List.all_eq_true] at uncached
      have reads := uncached thread there
      rw [asked] at reads
      cases reads

def idleCatalogue : Database :=
  { Database.empty with
    topicStats := AList.insert "jobs" { TopicStats.default with lastSeenAt := some 0 } ∅ }

def makesPersistent (topic : String) : HousekeepingCall :=
  .database (.configureTopics [⟨topic, .single, .persistent⟩])

def storesMessage (topic : String) : HousekeepingCall :=
  .database (.enqueueBatch [⟨newMessageId topic "m", none, topic, [], "\x7b\x7d"⟩])

/-- A message of a persistent topic is stored, and the idle topic is purged. -/
def purgesBeside : List HousekeepingEvent :=
  [.spawn (makesPersistent "keep"), .advance 0 {}, .advance 0 {}, .advance 0 {},
    .advance 0 {}, .spawn (storesMessage "keep"), .advance 1 {}, .advance 1 {},
    .advance 1 {}, .spawn (.database (.purgeIdleEphemeral 100 [])), .advance 2 {},
    .advance 2 {}, .advance 2 {}, .advance 2 { order := ["jobs"] }, .advance 2 {},
    .advance 2 {}, .advance 2 {}]

end Housekeeping

theorem housekeeping_sparesPersistent_purgesBeside : ∃ pool,
    Pool.replay (housekeepingComponent fun _ => true)
        Housekeeping.idleCatalogue Housekeeping.purgesBeside = some pool ∧
      pool.finished.map Finished.result =
        [.ok (.count 1), .ok (.stored [(newMessageId "keep" "m", false)]),
          .ok (.configs [⟨"jobs", .broadcast, .ephemeral⟩, ⟨"keep", .single, .persistent⟩])] ∧
      ∀ entry ∈ pool.history, entry.call.Housekeeps → Housekeeping.Spares entry := by
  have checked : checkAlong
      (Pool.step (housekeepingComponent fun _ => true))
      (Housekeeping.quietCheck fun _ => true)
      (Pool.start Housekeeping.idleCatalogue)
      Housekeeping.purgesBeside = true := by
    decide +kernel
  have quiet :=
    along_of_check_of_invariant (Pool.accounted_step fun call => call.ensures_body _)
      (fun pool event accounted checked => Housekeeping.quiet_of_check accounted checked)
      (Pool.accounted_start Housekeeping.idleCatalogue) checked
  have spares := fun pool replayed =>
    housekeeping_sparesPersistent (fun _ => true) Housekeeping.idleCatalogue
      Housekeeping.purgesBeside pool replayed quiet
  refine (exists_some_of_check ?_).imp fun pool reached =>
    ⟨reached.1, reached.2, spares pool reached.1⟩
  decide +kernel

/-- The idle topic is made persistent and gets a message after the purge has listed
it. -/
def Housekeeping.purgesListed : List HousekeepingEvent :=
  [.spawn (.database (.purgeIdleEphemeral 100 [])), .advance 0 {},
    .advance 0 { order := ["jobs"] }, .spawn (Housekeeping.makesPersistent "jobs"),
    .advance 1 {}, .advance 1 {}, .advance 1 {}, .advance 1 {},
    .spawn (Housekeeping.storesMessage "jobs"), .advance 2 {}, .advance 2 {},
    .advance 2 {}, .advance 0 {}]

/-- The purge then deletes the message of a topic whose row says persistent. -/
theorem housekeeping_discardsPersistent : ∃ pool,
    Pool.replay (housekeepingComponent fun _ => true)
        Housekeeping.idleCatalogue Housekeeping.purgesListed = some pool ∧
      ∃ entry ∈ pool.history, entry.call.Housekeeps ∧ ¬ Housekeeping.Spares entry := by
  obtain ⟨pool, replayed, entry, listed, housekeeps, row, stored, persistent, lost⟩ : ∃ pool,
      Pool.replay (housekeepingComponent fun _ => true)
          Housekeeping.idleCatalogue Housekeeping.purgesListed = some pool ∧
        ∃ entry ∈ pool.history, entry.call.Housekeeps ∧
          ∃ row ∈ (entry.before.messages (.shard 13)).rows,
            entry.before.Persistent row.topic ∧ row ∉ (entry.after.messages (.shard 13)).rows :=
    exists_some_of_check (by decide +kernel)
  refine ⟨pool, replayed, entry, listed, housekeeps, fun spares => ?_⟩
  exact lost (spares (.shard 13) row stored persistent)

end CanglingBroker
