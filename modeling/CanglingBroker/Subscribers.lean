import CanglingBroker.Foundation.Table
import CanglingBroker.Topic

/-!
# Live subscribers

An entry of `TopicSubscribers` is added when a `SubscriptionGuard` is created and removed
when it is dropped, and carries no trace of the guard that made it.  So dropping any guard
of a filter and session removes their entry, and the table follows the guards exactly while
no guard is dropped beside another one of its pair.
-/

namespace CanglingBroker

open Foundation

/-- The sending half of a stream, named by its channel. -/
abbrev StreamSender : Type := Nat

/-- What the status page shows of a session. -/
structure SessionInfo where
  id : String
  topic : String
  peer : String
  connectedAt : Nat
  protocol : String
  version : String
  host : String
  deriving DecidableEq, Repr

structure LiveEntry where
  info : SessionInfo
  tx : StreamSender
  deriving DecidableEq, Repr

abbrev TopicSubscribers : Type := Dict String (Dict String LiveEntry)

namespace TopicSubscribers

def liveEntry (subscribers : TopicSubscribers) (topic session : String) :
    Option LiveEntry :=
  (subscribers.lookup topic).bind fun sessions => sessions.lookup session

/-- `TopicSubscribers::add`: an entry of the same filter and session is
overwritten. -/
def add (topic session : String) (tx : StreamSender)
    (peer protocol version host : String) (now : Nat)
    (subscribers : TopicSubscribers) : TopicSubscribers :=
  let sessions := (subscribers.lookup topic).getD ∅
  subscribers.insert topic <| sessions.insert session
      { info :=
          { id := session, topic := topic, peer := peer, connectedAt := now,
            protocol := protocol, version := version, host := host }
        tx := tx }

/-- Keep a filter's remaining sessions; a filter without sessions leaves the
table. -/
def keepSessions (topic : String) (remaining : Dict String LiveEntry)
    (subscribers : TopicSubscribers) : TopicSubscribers :=
  if remaining.entries = [] then
    subscribers.erase topic
  else
    subscribers.insert topic remaining

def remove (topic session : String) (subscribers : TopicSubscribers) :
    TopicSubscribers :=
  match subscribers.lookup topic with
  | none => subscribers
  | some sessions => subscribers.keepSessions topic (sessions.erase session)

def covers (subscribers : TopicSubscribers) (publishedTopic : String) : Bool :=
  subscribers.entries.any fun entry =>
    !entry.2.entries.isEmpty && filterMatches entry.1 publishedTopic

/-- A listing of the table in the order its hash maps happen to be walked. -/
def Lists (subscribers : TopicSubscribers) (walk : List (String × String × LiveEntry)) : Prop :=
  ∀ topic session entry,
    (topic, session, entry) ∈ walk ↔ subscribers.liveEntry topic session = some entry

/-- The loop of `matching_senders`: the first matching entry of a session
decides its sender. -/
def collectSenders (publishedTopic : String) :
    List (String × String × LiveEntry) → Dict String StreamSender → Dict String StreamSender
  | [], seen => seen
  | (filter, session, entry) :: rest, seen =>
    if filterMatches filter publishedTopic && !(seen.lookup session).isSome then
      collectSenders publishedTopic rest (seen.insert session entry.tx)
    else
      collectSenders publishedTopic rest seen

/-- `TopicSubscribers::matching_senders` for one walk of the table. -/
def matchingSenders (walk : List (String × String × LiveEntry))
    (publishedTopic : String) : Dict String StreamSender :=
  collectSenders publishedTopic walk ∅

variable (subscribers : TopicSubscribers) {topic session publishedTopic : String}

theorem liveEntry_add (topic session : String) (tx : StreamSender)
    (peer protocol version host : String) (now : Nat) (otherTopic otherSession : String) :
    (subscribers.add topic session tx peer protocol version host now).liveEntry
        otherTopic otherSession =
      if otherTopic = topic ∧ otherSession = session then
        some
          { info :=
              { id := session, topic := topic, peer := peer, connectedAt := now,
                protocol := protocol, version := version, host := host }
            tx := tx }
      else
        subscribers.liveEntry otherTopic otherSession := by
  unfold liveEntry add
  by_cases sameTopic : otherTopic = topic
  · subst sameTopic
    rw [AList.lookup_insert]
    by_cases sameSession : otherSession = session
    · subst sameSession
      simp [AList.lookup_insert]
    · rw [if_neg (by simp [sameSession])]
      simp only [Option.bind_some]
      rw [AList.lookup_insert_ne sameSession]
      cases subscribers.lookup otherTopic with
      | none => simp
      | some => simp
  · rw [AList.lookup_insert_ne sameTopic, if_neg (by simp [sameTopic])]

private theorem lookup_eq_none_of_entries_nil {sessions : Dict String LiveEntry}
    (empty : sessions.entries = []) (session : String) : sessions.lookup session = none := by
  have isEmpty : sessions = ∅ := AList.ext empty
  rw [isEmpty, AList.lookup_empty]

theorem liveEntry_keepSessions (topic : String) (remaining : Dict String LiveEntry)
    (otherTopic otherSession : String) :
    (subscribers.keepSessions topic remaining).liveEntry otherTopic otherSession =
      if otherTopic = topic then
        remaining.lookup otherSession
      else
        subscribers.liveEntry otherTopic otherSession := by
  unfold keepSessions liveEntry
  by_cases same : otherTopic = topic
  · subst same
    rw [if_pos rfl]
    by_cases empty : remaining.entries = []
    · rw [if_pos empty, AList.lookup_erase, lookup_eq_none_of_entries_nil empty]
      rfl
    · rw [if_neg empty, AList.lookup_insert]
      rfl
  · rw [if_neg same]
    by_cases empty : remaining.entries = []
    · rw [if_pos empty, AList.lookup_erase_ne same]
    · rw [if_neg empty, AList.lookup_insert_ne same]

theorem liveEntry_remove (topic session : String) (otherTopic otherSession : String) :
    (subscribers.remove topic session).liveEntry otherTopic otherSession =
      if otherTopic = topic ∧ otherSession = session then
        none
      else
        subscribers.liveEntry otherTopic otherSession := by
  unfold remove
  cases found : subscribers.lookup topic with
  | none =>
    by_cases same : otherTopic = topic ∧ otherSession = session
    · obtain ⟨rfl, rfl⟩ := same
      simp [liveEntry, found]
    · rw [if_neg same]
  | some sessions =>
    change
      (subscribers.keepSessions topic (sessions.erase session)).liveEntry
          otherTopic otherSession = _
    rw [liveEntry_keepSessions]
    by_cases sameTopic : otherTopic = topic
    · subst sameTopic
      by_cases sameSession : otherSession = session
      · subst sameSession
        simp [AList.lookup_erase]
      · rw [AList.lookup_erase_ne sameSession]
        simp [sameSession, liveEntry, found]
    · simp [sameTopic]

variable {subscribers : TopicSubscribers} {entry : LiveEntry}

theorem covers_of_liveEntry (live : subscribers.liveEntry topic session = some entry)
    (matched : filterMatches topic publishedTopic = true) :
    subscribers.covers publishedTopic = true := by
  obtain ⟨sessions, found, inner⟩ := Option.bind_eq_some_iff.mp live
  unfold covers
  rw [List.any_eq_true]
  refine ⟨⟨topic, sessions⟩, AList.mem_lookup_iff.mp found, ?_⟩
  have nonempty : sessions.entries ≠ [] := by
    intro empty
    rw [lookup_eq_none_of_entries_nil empty] at inner
    cases inner
  simp [matched, nonempty]

variable {publishedTopic session : String}

/-- What `collectSenders` finds: a sender kept from before, or the sender of a
matching entry of the walk. -/
private theorem collectSenders_origin {sender : StreamSender} :
    ∀ {walk : List (String × String × LiveEntry)}
      {seen : Dict String StreamSender},
      (collectSenders publishedTopic walk seen).lookup session = some sender →
        seen.lookup session = some sender ∨ ∃ topic entry,
            (topic, session, entry) ∈ walk ∧
              filterMatches topic publishedTopic = true ∧ entry.tx = sender
  | [], seen, found => .inl found
  | (filter, id, entry) :: rest, seen, found => by
    unfold collectSenders at found
    split at found
    · next taken =>
      rw [Bool.and_eq_true] at taken
      rcases collectSenders_origin found with kept | ⟨topic, later, member, rest⟩
      · by_cases same : session = id
        · subst same
          rw [AList.lookup_insert, Option.some.injEq] at kept
          exact .inr ⟨filter, entry, .head _, taken.1, kept⟩
        · rw [AList.lookup_insert_ne same] at kept
          exact .inl kept
      · exact .inr ⟨topic, later, .tail _ member, rest⟩
    · rcases collectSenders_origin found with kept | ⟨topic, later, member, rest⟩
      · exact .inl kept
      · exact .inr ⟨topic, later, .tail _ member, rest⟩

private theorem collectSenders_keeps :
    ∀ {walk : List (String × String × LiveEntry)}
      {seen : Dict String StreamSender},
      (seen.lookup session).isSome →
        ((collectSenders publishedTopic walk seen).lookup session).isSome
  | [], seen, found => found
  | (filter, id, entry) :: rest, seen, found => by
    unfold collectSenders
    split
    · next taken =>
      apply collectSenders_keeps
      by_cases same : session = id
      · subst same
        simp
      · rw [AList.lookup_insert_ne same]
        exact found
    · exact collectSenders_keeps found

private theorem collectSenders_complete :
    ∀ {walk : List (String × String × LiveEntry)}
      {seen : Dict String StreamSender},
      (topic, session, entry) ∈ walk → filterMatches topic publishedTopic = true →
          ((collectSenders publishedTopic walk seen).lookup session).isSome
  | (filter, id, first) :: rest, seen, member, matched => by
    unfold collectSenders
    rcases List.mem_cons.mp member with same | later
    · obtain ⟨rfl, rfl, rfl⟩ : topic = filter ∧ session = id ∧ entry = first := by
        simpa using same
      by_cases known : (seen.lookup session).isSome
      · rw [if_neg (by simp [known])]
        exact collectSenders_keeps known
      · rw [if_pos (by simp [matched, known])]
        exact collectSenders_keeps (by simp)
    · split
      · exact collectSenders_complete later matched
      · exact collectSenders_complete later matched

variable {walk : List (String × String × LiveEntry)}

theorem matchingSenders_origin (lists : subscribers.Lists walk) {sender : StreamSender}
    (found : (matchingSenders walk publishedTopic).lookup session = some sender) :
    ∃ topic entry, subscribers.liveEntry topic session = some entry ∧
        filterMatches topic publishedTopic = true ∧ entry.tx = sender := by
  rcases collectSenders_origin found with kept | ⟨topic, entry, member, rest⟩
  · rw [AList.lookup_empty] at kept
    cases kept
  · exact ⟨topic, entry, (lists topic session entry).mp member, rest⟩

theorem matchingSenders_complete (lists : subscribers.Lists walk)
    (live : subscribers.liveEntry topic session = some entry)
    (matched : filterMatches topic publishedTopic = true) :
    ((matchingSenders walk publishedTopic).lookup session).isSome :=
  collectSenders_complete ((lists topic session entry).mpr live) matched

end TopicSubscribers

/-! ## Guards -/

/-- A `SubscriptionGuard`, with the sender it registered. -/
structure SubscriptionGuard where
  topic : String
  session : String
  tx : StreamSender
  deriving DecidableEq, Repr

/-- The table together with the guards that are alive. -/
structure SubscriberState where
  table : TopicSubscribers
  guards : Nat → Option SubscriptionGuard

/-- A guard is created by its subscribe loop, or dropped at the loop's end. -/
inductive GuardEvent where
  | create (guard : Nat) (topic session : String) (tx : StreamSender)
      (peer protocol version host : String) (now : Nat)
  | drop (guard : Nat)

namespace SubscriberState

def start : SubscriberState where
  table := ∅
  guards := fun _ => none

/-- `SubscriptionGuard::new` and `Drop for SubscriptionGuard`. -/
def step (state : SubscriberState) : GuardEvent → Option SubscriberState
  | .create guard topic session tx peer protocol version host now =>
    match state.guards guard with
    | some _ => none
    | none =>
      some
        { table :=
            state.table.add topic session tx peer protocol version host now
          guards :=
            Function.update state.guards guard (some ⟨topic, session, tx⟩) }
  | .drop guard =>
    match state.guards guard with
    | none => none
    | some dropped =>
      some
        { table := state.table.remove dropped.topic dropped.session
          guards := Function.update state.guards guard none }

def Alive (state : SubscriberState) (topic session : String) : Prop :=
  ∃ number guard, state.guards number = some guard ∧ guard.topic = topic ∧ guard.session = session

/-- The table holds an entry for exactly the pairs with a live guard, and the
entry's sender is the sender of a live guard of the pair. -/
structure Tracks (state : SubscriberState) : Prop where
  entry_iff :
    ∀ topic session, (state.table.liveEntry topic session).isSome ↔ state.Alive topic session
  sender_alive :
    ∀ topic session entry, state.table.liveEntry topic session = some entry →
        ∃ number guard, state.guards number = some guard ∧
            guard.topic = topic ∧ guard.session = session ∧ guard.tx = entry.tx

/-- Routing misses no running loop: a topic its filter matches is covered, and
however the table is walked its session gets a sender, which belongs to a live
guard of that session with a matching filter. -/
def RoutesToEveryLoop (state : SubscriberState) : Prop :=
  ∀ number guard publishedTopic, state.guards number = some guard →
      filterMatches guard.topic publishedTopic = true → state.table.covers publishedTopic = true ∧
          ∀ walk, state.table.Lists walk → ∃ sender,
              (TopicSubscribers.matchingSenders walk publishedTopic).lookup
                  guard.session = some sender ∧
                ∃ other otherGuard, state.guards other = some otherGuard ∧
                    otherGuard.session = guard.session ∧
                      filterMatches otherGuard.topic publishedTopic = true ∧ otherGuard.tx = sender

def LiveView (state : SubscriberState) : Prop :=
  state.Tracks ∧ state.RoutesToEveryLoop

/-- The dropped guard is the only live one of its filter and session. -/
def DropsSoleGuard (state : SubscriberState) : GuardEvent → Prop
  | .create .. => True
  | .drop guard =>
    ∀ dropped, state.guards guard = some dropped → ∀ other otherGuard, other ≠ guard →
        state.guards other = some otherGuard →
          ¬ (otherGuard.topic = dropped.topic ∧ otherGuard.session = dropped.session)

variable {state : SubscriberState}

theorem Tracks.routes (tracks : state.Tracks) : state.RoutesToEveryLoop := by
  intro number guard publishedTopic alive matched
  have present : (state.table.liveEntry guard.topic guard.session).isSome :=
    (tracks.entry_iff guard.topic guard.session).mpr ⟨number, guard, alive, rfl, rfl⟩
  obtain ⟨entry, live⟩ := Option.isSome_iff_exists.mp present
  refine ⟨TopicSubscribers.covers_of_liveEntry live matched, ?_⟩
  intro walk lists
  have chosen := TopicSubscribers.matchingSenders_complete lists live matched
  obtain ⟨sender, found⟩ := Option.isSome_iff_exists.mp chosen
  obtain ⟨topic, origin, originLive, originMatched, rfl⟩ :=
    TopicSubscribers.matchingSenders_origin lists found
  obtain ⟨other, otherGuard, otherAlive, rfl, sameSession, sameSender⟩ :=
    tracks.sender_alive topic guard.session origin originLive
  exact ⟨origin.tx, found, other, otherGuard, otherAlive, sameSession, originMatched, sameSender⟩

theorem liveView_iff_tracks : state.LiveView ↔ state.Tracks :=
  ⟨fun view => view.1, fun tracks => ⟨tracks, tracks.routes⟩⟩

theorem tracks_start : start.Tracks where
  entry_iff := by
    intro topic session
    simp [start, TopicSubscribers.liveEntry, Alive]
  sender_alive := by
    intro topic session entry live
    simp [start, TopicSubscribers.liveEntry] at live

variable {reached : SubscriberState} {guard : Nat} {peer protocol version host : String}

theorem step_create {topic session : String} {tx : StreamSender} {now : Nat}
    (stepped :
      state.step (.create guard topic session tx peer protocol version host now) = some reached) :
    reached.table = state.table.add topic session tx peer protocol version host now ∧
      ∀ number kept, reached.guards number = some kept ↔
          state.guards number = some kept ∨ (number = guard ∧ kept = ⟨topic, session, tx⟩) := by
  simp only [step] at stepped
  split at stepped
  · cases stepped
  next unused =>
  rw [Option.some.injEq] at stepped
  subst stepped
  refine ⟨rfl, ?_⟩
  intro number kept
  by_cases isNew : number = guard
  · subst isNew
    simp [unused, eq_comm]
  · simp [isNew]

theorem step_drop (stepped : state.step (.drop guard) = some reached) : ∃ dropped,
    state.guards guard = some dropped ∧
      reached.table = state.table.remove dropped.topic dropped.session ∧ ∀ number kept,
          reached.guards number = some kept ↔ number ≠ guard ∧ state.guards number = some kept := by
  simp only [step] at stepped
  split at stepped
  · cases stepped
  next dropped wasAlive =>
  rw [Option.some.injEq] at stepped
  subst stepped
  refine ⟨dropped, wasAlive, rfl, ?_⟩
  intro number kept
  by_cases isDropped : number = guard
  · subst isDropped
    simp
  · simp [isDropped]

/-- Creating a guard keeps the table in step, beside whatever other guards of
its pair are alive. -/
theorem Tracks.create {topic session : String} {tx : StreamSender} {now : Nat}
    (tracks : state.Tracks)
    (stepped :
      state.step (.create guard topic session tx peer protocol version host now) = some reached) :
    reached.Tracks := by
  obtain ⟨table, guards⟩ := step_create stepped
  have newAlive : reached.guards guard = some ⟨topic, session, tx⟩ :=
    (guards _ _).mpr (.inr ⟨rfl, rfl⟩)
  constructor
  · intro otherTopic otherSession
    rw [table, TopicSubscribers.liveEntry_add]
    by_cases same : otherTopic = topic ∧ otherSession = session
    · rw [if_pos same]
      simp only [Option.isSome_some, true_iff]
      exact ⟨guard, _, newAlive, same.1.symm, same.2.symm⟩
    · rw [if_neg same, tracks.entry_iff]
      constructor
      · rintro ⟨number, kept, alive, pair⟩
        exact ⟨number, kept, (guards _ _).mpr (.inl alive), pair⟩
      · rintro ⟨number, kept, alive, rfl, rfl⟩
        rcases (guards _ _).mp alive with old | ⟨_, rfl⟩
        · exact ⟨number, kept, old, rfl, rfl⟩
        · exact absurd ⟨rfl, rfl⟩ same
  · intro otherTopic otherSession entry live
    rw [table, TopicSubscribers.liveEntry_add] at live
    split at live
    · next same =>
      rw [Option.some.injEq] at live
      subst live
      exact ⟨guard, _, newAlive, same.1.symm, same.2.symm, rfl⟩
    · obtain ⟨number, kept, alive, rest⟩ :=
        tracks.sender_alive otherTopic otherSession entry live
      exact ⟨number, kept, (guards _ _).mpr (.inl alive), rest⟩

/-- Dropping a guard keeps the table in step exactly when no other guard of its
pair is alive: the pair's entry is gone either way. -/
theorem Tracks.drop_iff (tracks : state.Tracks)
    (stepped : state.step (.drop guard) = some reached) :
    reached.Tracks ↔ state.DropsSoleGuard (.drop guard) := by
  obtain ⟨dropped, wasAlive, table, guards⟩ := step_drop stepped
  constructor
  · intro tracked held sameGuard other otherGuard different otherAlive pair
    rw [wasAlive, Option.some.injEq] at sameGuard
    subst sameGuard
    have present :=
      (tracked.entry_iff dropped.topic dropped.session).mpr
        ⟨other, otherGuard, (guards _ _).mpr ⟨different, otherAlive⟩, pair⟩
    rw [table, TopicSubscribers.liveEntry_remove] at present
    simp at present
  · intro sole
    -- the guards of other pairs are the ones that survive
    have survives : ∀ {number kept}, state.guards number = some kept →
        ¬ (kept.topic = dropped.topic ∧ kept.session = dropped.session) →
          reached.guards number = some kept := by
      intro number kept alive apart
      refine (guards _ _).mpr ⟨?_, alive⟩
      rintro rfl
      rw [wasAlive, Option.some.injEq] at alive
      exact apart ⟨by rw [alive], by rw [alive]⟩
    constructor
    · intro topic session
      rw [table, TopicSubscribers.liveEntry_remove]
      by_cases same : topic = dropped.topic ∧ session = dropped.session
      · rw [if_pos same]
        simp only [Option.isSome_none, Bool.false_eq_true, false_iff]
        rintro ⟨number, kept, alive, rfl, rfl⟩
        obtain ⟨different, old⟩ := (guards _ _).mp alive
        exact sole dropped wasAlive number kept different old same
      · rw [if_neg same, tracks.entry_iff]
        constructor
        · rintro ⟨number, kept, alive, rfl, rfl⟩
          exact ⟨number, kept, survives alive same, rfl, rfl⟩
        · rintro ⟨number, kept, alive, pair⟩
          exact ⟨number, kept, ((guards _ _).mp alive).2, pair⟩
    · intro topic session entry live
      rw [table, TopicSubscribers.liveEntry_remove] at live
      split at live
      · cases live
      · next apart =>
        obtain ⟨number, kept, alive, rfl, rfl, sameSender⟩ :=
          tracks.sender_alive topic session entry live
        exact ⟨number, kept, survives alive apart, rfl, rfl, sameSender⟩

theorem liveView_step_iff {event : GuardEvent} (view : state.LiveView)
    (stepped : state.step event = some reached) :
    reached.LiveView ↔ state.DropsSoleGuard event := by
  rw [liveView_iff_tracks] at view ⊢
  cases event with
  | create =>
    exact iff_of_true (view.create stepped) trivial
  | drop => exact view.drop_iff stepped

/-- In every run of guard creations and drops, the table is a faithful view of
the live subscriptions in all states the run visits exactly when each drop is
of the only live guard of its filter and session. -/
theorem liveView_throughout_iff (events : List GuardEvent) (final : SubscriberState)
    (ran : run step start events = some final) :
    Throughout step LiveView start events ↔ Along step DropsSoleGuard start events :=
  throughout_iff_along
    (fun view stepped => liveView_step_iff view stepped)
    (liveView_iff_tracks.mpr tracks_start) ran

/-- A stream reopened under its consumer id before the first loop has ended. -/
def reopenedStream : List GuardEvent :=
  [.create 0 "jobs" "c1" 7 "10.0.0.1:4321" "grpc" "java/0.1.29" "worker-a" 100,
    .create 1 "jobs" "c1" 8 "10.0.0.1:4322" "grpc" "java/0.1.29" "worker-a" 200,
    .drop 0]

theorem liveView_throughout_iff_reopenedStream : ∃ final,
    run step start reopenedStream = some final ∧
      ¬ Along step DropsSoleGuard start reopenedStream ∧
      ¬ Throughout step LiveView start reopenedStream := by
  have shared : ¬ Along step DropsSoleGuard start reopenedStream := by
    intro along
    have sole := ((along.2 _ rfl).2 _ rfl).1 ⟨"jobs", "c1", 7⟩ rfl 1 ⟨"jobs", "c1", 8⟩
    exact sole (by decide) rfl ⟨rfl, rfl⟩
  exact ⟨_, rfl, shared, mt (liveView_throughout_iff _ _ rfl).mp shared⟩

/-- The reopened stream's loop still runs, and the table has forgotten it. -/
theorem not_liveView_of_reopenedStream : ¬ ∀ events final,
    run step start events = some final → final.LiveView := by
  intro always
  have view := always reopenedStream _ rfl
  have present := (view.1.entry_iff "jobs" "c1").mpr ⟨1, ⟨"jobs", "c1", 8⟩, rfl, rfl, rfl⟩
  exact absurd present (by decide)

end SubscriberState

end CanglingBroker
