import CanglingBroker.Database.Provenance
import CanglingBroker.Delivery.Frame

/-!
# No wake-up is lost

A subscribe loop registers with the notifications first, then claims, and waits only after
a claim that found nothing; a writer stores its messages first and then notifies.  `Wakes`
reads this order off the programs; then the versions of the channels are followed from a
notification on.
-/

namespace CanglingBroker

open Foundation
open Program (Asks Ensures Guided asks_ask asks_bind asks_done ensures_bind guided_bind guided_done)
open QueueNotifications (version_raise version_subscribe version_subscribe_of_some)

abbrev DeliveryExchange : Type := Exchange DeliveryAction DeliveryAction.Reply

abbrev DeliveryEntry : Type :=
  Performed DeliveryCall DeliveryAction DeliveryAction.Reply DeliveryState

/-- The calls of the delivery side over their shared state. -/
abbrev DeliveryPool : Type :=
  Pool DeliveryCall DeliveryAction DeliveryAction.Reply DeliveryState DeliveryResult

abbrev DeliveryEvents : Type := List (PoolEvent DeliveryCall DeliveryChoice)

/-- Replay a schedule of the delivery side over a database. -/
def deliveries (validJson : String → Bool) (initial : Database)
    (events : DeliveryEvents) : Option DeliveryPool :=
  Pool.replay (deliveryComponent validJson) (.start initial) events

/-! ## The order of the programs -/

namespace Delivery

/-- The exchange makes the newest version of a channel the one seen. -/
def Looks (watcher : Nat) (exchange : DeliveryExchange) : Prop :=
  (∃ topic, exchange = ⟨.watch topic, watcher⟩) ∨
    ∃ token, exchange = ⟨.awaitChange watcher token, Wake.changed⟩

/-- Since each look at its channel the loop has claimed, and found nothing. -/
def ClaimedSinceLook (watcher : Nat) (filter : String) (path : List DeliveryExchange) :
    Prop :=
  ∀ recent look rest, path = recent ++ look :: rest → Looks watcher look →
    ∃ visibility limit number value,
      (⟨.start (.claimBatchForFilter filter visibility limit), number⟩ :
        DeliveryExchange) ∈ recent ∧
      (⟨.await number, .ok value⟩ : DeliveryExchange) ∈ recent ∧ value.messages = []

def Stored (path : List DeliveryExchange) : Prop :=
  ∀ call number, (⟨.start call, number⟩ : DeliveryExchange) ∈ path →
    call.enqueuedTopics ≠ [] → ∃ outcome, (⟨.await number, outcome⟩ : DeliveryExchange) ∈ path

def Unraised (path : List DeliveryExchange) : Prop :=
  ∀ channel, (⟨.raise channel, ()⟩ : DeliveryExchange) ∉ path

/-- A call waits only after a claim, notifies only when what it enqueued is stored, and
enqueues only before it notifies. -/
def Wakes (call : DeliveryCall) (path : List DeliveryExchange) : DeliveryAction → Prop
  | .awaitChange watcher _ =>
    ∃ args bound, call = .subscribe args bound ∧
      (⟨.watch args.topic, watcher⟩ : DeliveryExchange) ∈ path ∧
      ClaimedSinceLook watcher args.topic path
  | .raise _ => Stored path
  | .start enqueue => enqueue.enqueuedTopics ≠ [] → Unraised path
  | _ => True

def Calm : DeliveryAction → Prop
  | .start call => call.enqueuedTopics = []
  | .watch _ => False
  | .awaitChange .. => False
  | _ => True

theorem not_looks_of_calm {request : DeliveryAction} (calm : Calm request)
    (answer : request.Reply) (watcher : Nat) : ¬Looks watcher ⟨request, answer⟩ := by
  rintro (⟨topic, same⟩ | ⟨token, same⟩)
  · cases same
    exact calm
  · cases same
    exact calm

theorem ClaimedSinceLook.cons {watcher : Nat} {filter : String} {path : List DeliveryExchange}
    {exchange : DeliveryExchange} (blind : ¬Looks watcher exchange)
    (claimed : ClaimedSinceLook watcher filter path) :
    ClaimedSinceLook watcher filter (exchange :: path) := by
  intro recent look rest split looks
  cases recent with
  | nil =>
    rw [List.nil_append, List.cons.injEq] at split
    exact absurd (split.1 ▸ looks) blind
  | cons _ recent =>
    rw [List.cons_append, List.cons.injEq] at split
    obtain ⟨visibility, limit, number, value, asked, returned, empty⟩ :=
      claimed recent look rest split.2 looks
    exact ⟨visibility, limit, number, value, .tail _ asked, .tail _ returned, empty⟩

theorem Stored.cons {path : List DeliveryExchange} (request : DeliveryAction)
    (plain : ∀ call, request = .start call → call.enqueuedTopics = []) (stored : Stored path)
    (answer : request.Reply) :
    Stored (⟨request, answer⟩ :: path) := by
  intro call number member enqueues
  rcases List.mem_cons.mp member with same | older
  · cases same
    exact absurd (plain call rfl) enqueues
  · obtain ⟨outcome, returned⟩ := stored call number older enqueues
    exact ⟨outcome, .tail _ returned⟩

section Orders

variable {Result Item : Type}

theorem Speaks.calm {kinds : List DeliveryKind} {program : Delivery Result}
    (speaks : Speaks kinds program)
    (calm : ∀ kind ∈ kinds, kind ≠ .store ∧ kind ≠ .watch ∧ kind ≠ .awaitChange) :
    Asks Calm program := by
  refine Asks.mono speaks fun request listed => ?_
  obtain ⟨stores, watches, waits⟩ := calm _ listed
  cases request with
  | start call =>
    cases call with
    | enqueue | enqueueBatch => exact absurd rfl stores
    | _ => rfl
  | watch => exact absurd rfl watches
  | awaitChange => exact absurd rfl waits
  | _ => trivial

theorem asks_forAll {body : Item → Delivery Unit} (each : ∀ item, Asks Calm (body item)) :
    ∀ items, Asks Calm (forAll body items)
  | [] => trivial
  | item :: rest => asks_bind (each item) fun _ => asks_forAll each rest

end Orders

/-! ## The order within each call -/

section Paths

variable {Result : Type} {call : DeliveryCall} {program : Delivery Result}

theorem guided_of_calm {known : List DeliveryExchange → Prop} (asks : Asks Calm program)
    (kept : ∀ path request answer, Calm request → known path → known (⟨request, answer⟩ :: path)) :
    Guided (fun path => Stored path ∧ known path) (Wakes call) program := by
  refine asks.guided (fun path request answer calm held => ?_) ?_
  · exact ⟨held.1.cons request (fun _ asked => by subst asked; exact calm) answer,
      kept path request answer calm held.2⟩
  · intro path request calm held
    cases request with
    | start => exact fun enqueues => absurd calm enqueues
    | raise => exact held.1
    | awaitChange => exact absurd calm not_false
    | _ => trivial

variable {path : List DeliveryExchange}

theorem ensures_of_calm (asks : Asks Calm program)
    (stored : Stored path) :
    Ensures (Wakes call) (fun _ _ => True) path program := by
  have guided : Guided (fun path => Stored path ∧ True) (Wakes call) program :=
    guided_of_calm asks fun _ _ _ _ known => known
  exact guided.ensures ⟨stored, trivial⟩

theorem stored_nil : Stored [] := fun _ _ member => absurd member List.not_mem_nil

theorem Stored.returned {path : List DeliveryExchange} (stored : Stored path) (enqueue : Call)
    (number : Nat) (outcome : Outcome) :
    Stored (⟨.await number, outcome⟩ :: ⟨.start enqueue, number⟩ :: path) := by
  intro other started member enqueues
  rcases List.mem_cons.mp member with same | member
  · cases same
  · rcases List.mem_cons.mp member with same | older
    · cases same
      exact ⟨outcome, .head _⟩
    · obtain ⟨answer, returned⟩ := stored other started older enqueues
      exact ⟨answer, .tail _ (.tail _ returned)⟩

theorem ensures_database_bind {before : List DeliveryExchange → DeliveryAction → Prop}
    {after : List DeliveryExchange → Result → Prop} {call : Call}
    {continuation : Outcome → Delivery Result} (asked : before path (.start call))
    (awaited : ∀ number, before (⟨.start call, number⟩ :: path) (.await number))
    (later :
      ∀ (number : Nat) (outcome : Outcome), Ensures before after
          (⟨.await number, outcome⟩ :: ⟨.start call, number⟩ :: path)
          (continuation outcome)) :
    Ensures before after path (database call >>= continuation) :=
  ⟨asked, fun number => ⟨awaited number, later number⟩⟩

theorem Unraised.returned (unraised : Unraised path) (call : Call) (number : Nat)
    (outcome : Outcome) :
    Unraised (⟨.await number, outcome⟩ :: ⟨.start call, number⟩ :: path) := by
  intro channel member
  rcases List.mem_cons.mp member with same | member
  · cases same
  · rcases List.mem_cons.mp member with same | older
    · cases same
    · exact unraised channel older

theorem ensures_persist (inputs : List EnqueueInput) (bound : Nat) (stored : Stored path)
    (unraised : Unraised path) :
    Ensures (Wakes call) (fun reached _ => Stored reached) path (persist inputs bound) := by
  induction bound generalizing path with
  | zero => exact ⟨trivial, fun blocked => nomatch blocked⟩
  | succ _ ih =>
    refine ensures_database_bind (fun _ => unraised) (fun _ => trivial) ?_
    intro number outcome
    split
    · exact stored.returned _ number _
    · exact ih (stored.returned _ number _) (unraised.returned _ number _)

theorem guided_stored (asks : Asks Calm program) :
    Guided Stored (Wakes call) program := by
  have guided : Guided (fun path => Stored path ∧ True) (Wakes call) program :=
    guided_of_calm asks fun _ _ _ _ known => known
  intro path stored
  exact (guided path ⟨stored, trivial⟩).weaken fun _ _ held => held.1

theorem ensures_write (inputs : List EnqueueInput) (bound : Nat) :
    Ensures (Wakes call) (fun _ _ => True) [] (write inputs bound) := by
  refine ensures_bind.mpr ⟨trivial, fun (commands : List DeliveredCommand) => ?_⟩
  have stored : Stored [⟨.takeCommands, commands⟩] :=
    stored_nil.cons .takeCommands (fun _ same => nomatch same) commands
  have unraised : Unraised [⟨.takeCommands, commands⟩] := by
    intro channel member
    cases List.mem_singleton.mp member
  have enqueued : Ensures (Wakes call) (fun reached _ => Stored reached)
      [⟨.takeCommands, commands⟩] (writeEnqueues inputs bound) := by
    unfold writeEnqueues
    split
    · exact stored
    · exact
        ensures_bind.mpr <| (ensures_persist inputs bound stored unraised).weaken
            fun reached results held =>
              guided_stored ((speaks_notifyFresh _ _).calm (by decide)) reached held
  refine ensures_bind.mpr (enqueued.weaken fun reached _ held => ?_)
  split
  · trivial
  · refine (guided_stored ?_).ensures held
    refine asks_bind ?_ fun outcome => (speaks_respondEach _ _).calm (by decide)
    exact (speaks_database rfl rfl : Speaks [.acknowledge, .await] _).calm (by decide)

theorem ensures_publishMessage (body : PublishMessageBody) :
    Ensures (Wakes call) (fun _ _ => True) [] (publishMessage body) := by
  unfold publishMessage
  dsimp only
  split
  · trivial
  · refine ensures_database_bind (fun plain => absurd rfl plain) (fun _ => trivial) ?_
    intro number outcome
    have stored := stored_nil.returned (.topicConfig (trimmed body.topic)) number outcome
    have unraised : Unraised [] := fun _ => List.not_mem_nil
    split
    · trivial
    · split
      · refine ensures_database_bind (fun _ => unraised.returned _ _ _) (fun _ => trivial) ?_
        intro enqueue result
        have later := stored.returned
          (.enqueue ((body.idempotencyKey.map trimmed).filter (· ≠ ""))
            (trimmed body.topic) body.payload body.attributes) enqueue result
        split
        · refine (guided_stored ?_).ensures later
          split
          · exact asks_done _
          · exact asks_bind ((speaks_notify _).calm (by decide)) fun _ => asks_done _
        · trivial
      · refine (guided_stored ?_).ensures stored
        refine asks_bind ((speaks_ingest _ _ _ _).calm (by decide)) fun ingested => ?_
        split
        · exact asks_done _
        · exact asks_done _

end Paths

section Subscribe

variable {Result : Type} (args : SubscribeLoop) (bound : Nat) {watcher : Nat}

def Watching (watcher : Nat) (path : List DeliveryExchange) : Prop :=
  Stored path ∧ (⟨.watch args.topic, watcher⟩ : DeliveryExchange) ∈ path

variable {args}

theorem guided_watching {program : Delivery Result} (asks : Asks Calm program) :
    Guided (Watching args watcher) (Wakes (.subscribe args bound)) program :=
  guided_of_calm asks fun _ _ _ _ watching => .tail _ watching

theorem Watching.returned {path : List DeliveryExchange} (watching : Watching args watcher path)
    (call : Call) (number : Nat) (outcome : Outcome) :
    Watching args watcher (⟨.await number, outcome⟩ :: ⟨.start call, number⟩ :: path) :=
  ⟨watching.1.returned call number outcome, .tail _ (.tail _ watching.2)⟩

theorem claimedSinceLook_returned (filter : String) (visibility limit number : Nat)
    {value : Value} (empty : value.messages = []) (path : List DeliveryExchange) :
    ClaimedSinceLook watcher filter
      (⟨.await number, .ok value⟩ ::
        ⟨.start (.claimBatchForFilter filter visibility limit), number⟩ :: path) := by
  intro recent look rest split looks
  have blind : ∀ exchange : DeliveryExchange, Calm exchange.request → exchange ≠ look := by
    rintro exchange calm rfl
    exact not_looks_of_calm calm exchange.answer watcher looks
  cases recent with
  | nil =>
    rw [List.nil_append, List.cons.injEq] at split
    exact absurd split.1 (blind _ trivial)
  | cons _ recent =>
    cases recent with
    | nil =>
      simp only [List.cons_append, List.nil_append, List.cons.injEq] at split
      exact absurd split.2.1 (blind _ rfl)
    | cons =>
      simp only [List.cons_append, List.cons.injEq] at split
      refine ⟨visibility, limit, number, value, ?_, ?_, empty⟩
      · rw [split.2.1]
        exact .tail _ (.head _)
      · rw [split.1]
        exact .head _

/-- The loop has registered, and has claimed since it last looked if its claim found
nothing. -/
def Waiting (args : SubscribeLoop) (watcher : Nat) (found : List ClaimedMessage)
    (path : List DeliveryExchange) : Prop :=
  Stored path ∧ (⟨.watch args.topic, watcher⟩ : DeliveryExchange) ∈ path ∧
    (found = [] → ClaimedSinceLook watcher args.topic path)

theorem guided_waiting {found : List ClaimedMessage} {program : Delivery Result}
    (asks : Asks Calm program) :
    Guided (Waiting args watcher found) (Wakes (.subscribe args bound)) program := by
  refine guided_of_calm asks fun path request answer calm held => ?_
  refine ⟨.tail _ held.1, fun empty => ?_⟩
  exact (held.2 empty).cons (not_looks_of_calm calm answer watcher)

theorem messages_eq_nil {found : List ClaimedMessage} {more claimedAt : Nat}
    (empty :
      ((found.zip (List.replicate (more + 1) ())).map fun entry =>
        (entry.1, claimedAt)).isEmpty = true) :
    found = [] := by
  cases found with
  | nil => rfl
  | cons => cases empty

theorem guided_refill (semaphore last : Nat) :
    Guided (Watching args watcher) (Wakes (.subscribe args bound))
      (refill args watcher semaphore last) := by
  refine guided_bind (guided_watching bound (asks_ask trivial)) fun taken => ?_
  split
  · have calm := (speaks_reserve semaphore (args.config.batchLimit - 1)).calm (by decide)
    refine guided_bind (guided_watching bound calm) fun more => ?_
    dsimp only
    refine guided_bind (guided_watching bound (asks_ask trivial)) fun claimedAt => ?_
    intro path watching
    refine ensures_database_bind (fun plain => absurd rfl plain) (fun _ => trivial) ?_
    intro number outcome
    split
    · refine guided_watching bound ?_ _ (watching.returned _ number _)
      refine asks_bind (asks_ask trivial) fun slept => ?_
      exact asks_bind ((speaks_dropPermits _ _).calm (by decide)) fun _ => asks_done _
    · next value =>
      have waiting : Waiting args watcher value.messages
          (⟨.await number, .ok value⟩ ::
            ⟨.start (.claimBatchForFilter args.topic args.config.visibility
              (List.replicate (more + 1) ()).length), number⟩ :: path) :=
        ⟨(watching.returned _ number _).1, (watching.returned _ number _).2,
          fun empty => claimedSinceLook_returned _ _ _ _ empty path⟩
      refine ensures_bind.mpr ?_
      refine (guided_waiting bound ((speaks_dropPermits _ _).calm (by decide)) _ waiting).weaken ?_
      intro reached _ held
      split
      · next nothing =>
        refine ensures_bind.mpr ?_
        refine (guided_waiting bound ((speaks_heartbeat _ _).calm (by decide)) _ held).weaken ?_
        intro later touched held
        refine ensures_bind.mpr
          ⟨⟨args, bound, rfl, held.2.1, held.2.2 (messages_eq_nil nothing)⟩, fun wake => ?_⟩
        have onward : Watching args watcher (⟨.awaitChange watcher args.token, wake⟩ :: later) :=
          ⟨held.1.cons (.awaitChange watcher args.token) (fun _ same => nomatch same) wake,
            .tail _ held.2.1⟩
        rw [Program.ensures_done]
        split
        · exact onward
        · exact onward
        · exact onward
      · exact ⟨held.1, held.2.1⟩
  · exact guided_done _

theorem guided_rounds (semaphore : Nat) : ∀ (more : Nat) (ready : List Ready) (last : Nat),
    Guided (Watching args watcher) (Wakes (.subscribe args bound))
      (rounds args watcher semaphore more ready last)
  | 0, _, _ => fun _ _ => ⟨trivial, fun blocked => nomatch blocked⟩
  | more + 1, ready, last => by
    have sent : ∀ entry rest,
        Guided (Watching args watcher) (Wakes (.subscribe args bound))
          (dispatch args semaphore entry >>= fun goes =>
            if goes then
              rounds args watcher semaphore more rest last
            else
              pure rest) := by
      intro entry rest
      have calm := (speaks_dispatch args semaphore entry).calm (by decide)
      refine guided_bind (guided_watching bound calm) fun goes => ?_
      split
      · exact guided_rounds semaphore more rest last
      · exact guided_done _
    refine guided_bind (guided_watching bound (asks_ask trivial)) fun cancelled => ?_
    split
    · exact guided_done _
    · refine guided_bind (guided_watching bound (asks_ask trivial)) fun closed => ?_
      split
      · exact guided_done _
      · split
        · exact sent _ _
        · refine guided_bind (guided_refill bound semaphore last) fun refilled => ?_
          split
          · exact guided_done _
          · exact guided_rounds semaphore more [] _
          · exact guided_done _
          · exact sent _ _

theorem ensures_runSubscribeLoop (rounds : Nat) :
    Ensures (Wakes (.subscribe args bound)) (fun _ _ => True) []
      (runSubscribeLoop args rounds) := by
  refine ensures_bind.mpr ⟨trivial, fun _ => ?_⟩
  refine ensures_bind.mpr ⟨trivial, fun started => ?_⟩
  refine ensures_bind.mpr ⟨trivial, fun (watcher : Nat) => ?_⟩
  have watching : Watching args watcher
      [⟨.watch args.topic, watcher⟩, ⟨.now, started⟩,
        ⟨.subscribe args.topic args.session args.tx args.peer args.protocol
          args.version args.host, ()⟩] := by
    refine ⟨?_, .head _⟩
    refine Stored.cons (.watch _) (fun _ same => nomatch same) ?_ _
    refine Stored.cons .now (fun _ same => nomatch same) ?_ _
    exact stored_nil.cons (.subscribe ..) (fun _ same => nomatch same) _
  refine Guided.ensures watching ?_
  refine guided_bind (guided_watching bound (asks_ask trivial)) fun semaphore => ?_
  refine guided_bind (guided_rounds bound semaphore _ _ _) fun left => ?_
  refine guided_watching bound ?_
  refine asks_bind (asks_forAll (fun ready => ?_) _) fun _ => ?_
  · exact asks_bind ((speaks_release _).calm (by decide)) fun _ => asks_ask trivial
  · refine asks_bind (asks_ask trivial) fun _ => ?_
    exact asks_bind (asks_ask trivial) fun _ => (speaks_lastSubscriberLeft _).calm (by decide)

end Subscribe

end Delivery

open Delivery

theorem DeliveryCall.wakes (call : DeliveryCall) :
    Ensures (Wakes call) (fun _ _ => True) [] call.body := by
  have mapped : ∀ {Result : Type} {program : Delivery Result} {convert : Result → DeliveryResult},
      Ensures (Wakes call) (fun _ _ => True) [] program →
        Ensures (Wakes call) (fun _ _ => True) [] (convert <$> program) := by
    intro Result program convert ensured
    exact ensures_bind.mpr ensured
  have asked :
      ∀ action, Wakes call [] action → Ensures (Wakes call) (fun _ _ => True) [] (act action) :=
    fun _ allowed => ⟨allowed, fun _ => trivial⟩
  cases call with
  | subscribe _ bound => exact mapped (ensures_runSubscribeLoop bound bound)
  | deliver => exact mapped (ensures_of_calm ((speaks_deliver _).calm (by decide)) stored_nil)
  | ackMessage ack =>
    exact mapped (ensures_of_calm ((speaks_ackMessage ack).calm (by decide)) stored_nil)
  | ackMessages batch =>
    exact mapped (ensures_of_calm ((speaks_ackMessages batch).calm (by decide)) stored_nil)
  | pubAck => exact mapped (asked (.complete ..) trivial)
  | consumeAck body maxAttempts =>
    have calm := (speaks_consumeAck body maxAttempts).calm (by decide)
    exact mapped (ensures_of_calm calm stored_nil)
  | write inputs bound => exact mapped (ensures_write inputs bound)
  | dispatch =>
    exact mapped (ensures_of_calm ((speaks_dispatchLoop _ _ _).calm (by decide)) stored_nil)
  | ingest =>
    exact mapped (ensures_of_calm ((speaks_ingest _ _ _ _).calm (by decide)) stored_nil)
  | publishMessage body => exact mapped (ensures_publishMessage body)
  | cancel token => exact mapped (asked (.cancel token) trivial)
  | background =>
    simp only [body, startBackground]
    split
    · exact ⟨fun _ _ => List.not_mem_nil, fun _ => trivial⟩
    · exact ⟨trivial, fun blocked => nomatch blocked⟩
  | engine thread => exact mapped (asked (.advance thread) trivial)

/-! ## The versions of the channels -/

/-- What an action does to the channels and their receivers. -/
inductive Noticed (state next : DeliveryState) : DeliveryExchange → Prop
  | watch (topic : String)
      (channels : next.notifications = (state.notifications.subscribe topic).2)
      (receivers :
        next.watchers = state.watchers ++
            [some ⟨channelOf topic, (state.notifications.subscribe topic).1⟩]) :
      Noticed state next ⟨.watch topic, state.watchers.length⟩
  | changed (watcher token : Nat) (receiver : WatchReceiver)
      (known : state.watchers[watcher]? = some (some receiver))
      (channels : next.notifications = state.notifications)
      (receivers :
        next.watchers = state.watchers.set watcher (some (receiver.look state.notifications))) :
      Noticed state next ⟨.awaitChange watcher token, Wake.changed⟩
  | raise (channel : Option String)
      (channels : next.notifications = state.notifications.raise channel)
      (receivers : next.watchers = state.watchers) :
      Noticed state next ⟨.raise channel, ()⟩
  | other (exchange : DeliveryExchange) (blind : ∀ watcher, ¬Looks watcher exchange)
      (silent : ∀ channel, exchange.request ≠ .raise channel)
      (channels : next.notifications = state.notifications)
      (receivers : next.watchers = state.watchers) :
      Noticed state next exchange

variable {state next : DeliveryState} {choice : DeliveryChoice} {watcher : Nat}

theorem noticed_awaitChange {token : Nat} {wake : Wake}
    (performed : state.awaitChange watcher token choice = some (wake, next)) :
    Noticed state next ⟨.awaitChange watcher token, wake⟩ := by
  have quiet : ∀ {ended : Wake}, ended ≠ .changed →
      Noticed state state ⟨.awaitChange watcher token, ended⟩ := by
    intro ended different
    refine .other _ (fun other looks => ?_) (fun _ => nofun) rfl rfl
    rcases looks with ⟨topic, same⟩ | ⟨token, same⟩
    · cases same
    · cases same
      exact different rfl
  unfold DeliveryState.awaitChange at performed
  split at performed
  · split at performed <;> cases performed
    exact quiet nofun
  · split at performed
    · next receiver known =>
      split at performed <;> cases performed
      exact .changed watcher token receiver known rfl rfl
    · cases performed
  · cases performed
  · cases performed
    exact quiet nofun

variable {request : DeliveryAction} {answer : request.Reply}

/-- Subscribing, waiting for a change and notifying apart, no action touches the
channels. -/
theorem perform_channels {validJson : String → Bool} (unwatched : ∀ topic, request ≠ .watch topic)
    (unwaited : ∀ watcher token, request ≠ .awaitChange watcher token)
    (unraised : ∀ channel, request ≠ .raise channel)
    (performed : state.perform validJson choice request = some (answer, next)) :
    next.notifications = state.notifications ∧ next.watchers = state.watchers := by
  have frame := perform_untouched performed
  cases request with
  | watch topic => exact absurd rfl (unwatched topic)
  | awaitChange watcher token => exact absurd rfl (unwaited watcher token)
  | raise channel => exact absurd rfl (unraised channel)
  | start call =>
    exact ⟨frame.notifications (by cases call <;> rfl), frame.watchers (by cases call <;> rfl)⟩
  | _ => exact ⟨frame.notifications rfl, frame.watchers rfl⟩

theorem perform_noticed {validJson : String → Bool}
    (performed : state.perform validJson choice request = some (answer, next)) :
    Noticed state next ⟨request, answer⟩ := by
  by_cases watches : ∃ topic, request = .watch topic
  · obtain ⟨topic, rfl⟩ := watches
    cases performed
    exact .watch topic rfl rfl
  by_cases waits : ∃ watcher token, request = .awaitChange watcher token
  · obtain ⟨watcher, token, rfl⟩ := waits
    exact noticed_awaitChange performed
  by_cases raises : ∃ channel, request = .raise channel
  · obtain ⟨channel, rfl⟩ := raises
    cases performed
    exact .raise channel rfl rfl
  obtain ⟨channels, receivers⟩ :=
    perform_channels (fun topic same => watches ⟨topic, same⟩)
      (fun watcher token same => waits ⟨watcher, token, same⟩)
      (fun channel same => raises ⟨channel, same⟩) performed
  refine .other _ (fun watcher looks => ?_) (fun channel same => raises ⟨channel, same⟩)
    channels receivers
  rcases looks with ⟨topic, same⟩ | ⟨token, same⟩
  · cases same
    exact watches ⟨topic, rfl⟩
  · cases same
    exact waits ⟨watcher, token, rfl⟩

variable {exchange : DeliveryExchange}

theorem Noticed.receiver {state next : DeliveryState} {receiver : WatchReceiver}
    (noticed : Noticed state next exchange)
    (known : next.watchers[watcher]? = some (some receiver)) :
    (∃ topic, exchange = ⟨.watch topic, watcher⟩ ∧
      receiver = ⟨channelOf topic, (state.notifications.subscribe topic).1⟩ ∧
      next.notifications = (state.notifications.subscribe topic).2) ∨
    (∃ token earlier, exchange = ⟨.awaitChange watcher token, Wake.changed⟩ ∧
      state.watchers[watcher]? = some (some earlier) ∧
      receiver = earlier.look state.notifications ∧
      next.notifications = state.notifications) ∨
    state.watchers[watcher]? = some (some receiver) := by
  cases noticed with
  | watch topic channels receivers =>
    rw [receivers, List.getElem?_append] at known
    split at known
    · exact .inr (.inr known)
    · next beyond =>
      rw [List.getElem?_singleton] at known
      split at known
      · next zero =>
        have same : watcher = state.watchers.length := by omega
        subst same
        exact .inl ⟨topic, rfl, (Option.some.inj (Option.some.inj known)).symm, channels⟩
      · cases known
  | changed _ token earlier found channels receivers =>
    rw [receivers, List.getElem?_set] at known
    split at known
    · next same =>
      subst same
      split at known
      · exact
          .inr (.inl
            ⟨token, earlier, rfl, found, (Option.some.inj (Option.some.inj known)).symm, channels⟩)
      · cases known
    · exact .inr (.inr known)
  | raise _ _ receivers | other _ _ _ _ receivers => exact .inr (.inr (receivers ▸ known))

theorem Noticed.version {channel : Option String} {current : Nat}
    (noticed : Noticed state next exchange)
    (known : state.notifications.version channel = some current) :
    ∃ later, next.notifications.version channel = some later ∧ current ≤ later := by
  cases noticed with
  | watch topic channels =>
    rw [channels]
    exact ⟨current, version_subscribe_of_some known topic, Nat.le_refl _⟩
  | changed _ _ _ _ channels | other _ _ _ channels =>
    rw [channels]
    exact ⟨current, known, Nat.le_refl _⟩
  | raise raised channels =>
    rw [channels]
    refine ⟨_, version_raise known raised, ?_⟩
    split
    · exact Nat.le_succ _
    · exact Nat.le_refl _

theorem Noticed.length_le (noticed : Noticed state next exchange) :
    state.watchers.length ≤ next.watchers.length := by
  cases noticed with
  | watch _ _ receivers =>
    rw [receivers, List.length_append]
    exact Nat.le_add_right _ _
  | changed _ _ _ _ _ receivers => rw [receivers, List.length_set]
  | raise _ _ receivers => rw [receivers]
  | other _ _ _ _ receivers => rw [receivers]

theorem Noticed.looks {state next : DeliveryState} (noticed : Noticed state next exchange)
    (looks : Looks watcher exchange) :
    ((∃ topic, exchange = ⟨.watch topic, watcher⟩) ∧ watcher = state.watchers.length) ∨
      ∃ token, exchange = ⟨.awaitChange watcher token, Wake.changed⟩ := by
  rcases looks with ⟨topic, same⟩ | ⟨token, same⟩
  · refine .inl ⟨⟨topic, same⟩, ?_⟩
    cases noticed with
    | watch =>
      cases same
      rfl
    | changed | raise => cases same
    | other _ blind => exact absurd (.inl ⟨topic, same⟩) (blind _)
  · exact .inr ⟨token, same⟩

/-- The receivers and the looks at their channels. -/
structure Receiving (state : DeliveryState) (history : List DeliveryEntry) : Prop where
  below :
    ∀ entry ∈ history, ∀ watcher, Looks watcher entry.exchange → watcher < state.watchers.length
  owner :
    ∀ entry ∈ history, ∀ other ∈ history, ∀ watcher, Looks watcher entry.exchange →
      Looks watcher other.exchange → entry.thread = other.thread
  channel :
    ∀ entry ∈ history, ∀ topic watcher receiver, entry.exchange = ⟨.watch topic, watcher⟩ →
        state.watchers[watcher]? = some (some receiver) → receiver.channel = channelOf topic
  seen :
    ∀ (watcher : Nat) receiver, state.watchers[watcher]? = some (some receiver) →
      ∃ current, state.notifications.version receiver.channel = some current ∧
        receiver.seen ≤ current

theorem Noticed.known {call : DeliveryCall} {thread : Nat} {history : List DeliveryEntry}
    (noticed : Noticed state next ⟨request, answer⟩)
    (allowed : Wakes call (ownPath thread history) request)
    (looks : Looks watcher ⟨request, answer⟩) :
    ((∃ topic, (⟨request, answer⟩ : DeliveryExchange) = ⟨.watch topic, watcher⟩) ∧
        watcher = state.watchers.length) ∨
      ∃ earlier ∈ history, earlier.thread = thread ∧ Looks watcher earlier.exchange := by
  rcases noticed.looks looks with first | ⟨token, same⟩
  · exact .inl first
  · cases same
    obtain ⟨args, bound, _, watches, _⟩ := allowed
    obtain ⟨earlier, member, own, same⟩ := exists_performed_of_mem_ownPath watches
    exact .inr ⟨earlier, member, own, .inl ⟨args.topic, same⟩⟩

theorem receiving_act {entry : DeliveryEntry} {history : List DeliveryEntry}
    (receiving : Receiving entry.before history)
    (noticed : Noticed entry.before entry.after entry.exchange)
    (allowed : Wakes entry.call (ownPath entry.thread history) entry.request) :
    Receiving entry.after (entry :: history) := by
  have looked : ∀ watcher, Looks watcher entry.exchange → watcher < entry.after.watchers.length ∧
      ∀ other ∈ history, Looks watcher other.exchange → entry.thread = other.thread := by
    intro watcher looks
    rcases noticed.known allowed looks with ⟨⟨topic, same⟩, first⟩ | earlier
    · constructor
      · rw [Performed.exchange, same, first] at noticed
        cases noticed with
        | watch _ _ receivers =>
          rw [first, receivers, List.length_append]
          exact Nat.lt_succ_self _
        | other _ blind =>
          exact absurd (.inl ⟨topic, rfl⟩) (blind _)
      · intro other member otherLooks
        exact absurd (receiving.below other member watcher otherLooks) (by omega)
    · obtain ⟨earlier, member, own, earlierLooks⟩ := earlier
      refine ⟨Nat.lt_of_lt_of_le ?_ noticed.length_le, fun other otherMember otherLooks => ?_⟩
      · exact receiving.below earlier member watcher earlierLooks
      · rw [← own]
        exact receiving.owner earlier member other otherMember watcher earlierLooks otherLooks
  constructor
  · intro other member watcher looks
    rcases List.mem_cons.mp member with rfl | older
    · exact (looked watcher looks).1
    · exact Nat.lt_of_lt_of_le (receiving.below other older watcher looks) noticed.length_le
  · intro left leftMember right rightMember watcher leftLooks rightLooks
    rcases List.mem_cons.mp leftMember with rfl | leftOlder
    · rcases List.mem_cons.mp rightMember with rfl | rightOlder
      · rfl
      · exact (looked watcher leftLooks).2 right rightOlder rightLooks
    · rcases List.mem_cons.mp rightMember with rfl | rightOlder
      · exact ((looked watcher rightLooks).2 left leftOlder leftLooks).symm
      · exact receiving.owner left leftOlder right rightOlder watcher leftLooks rightLooks
  · intro other member topic watcher receiver watches known
    rcases noticed.receiver known with
      ⟨watched, same, rfl, _⟩ | ⟨token, earlier, same, found, rfl, _⟩ | found
    · rcases List.mem_cons.mp member with rfl | older
      · cases same.symm.trans watches
        rfl
      · -- the number is new, so no earlier entry has it
        have first := receiving.below other older watcher (.inl ⟨topic, watches⟩)
        rcases noticed.looks (.inl ⟨watched, same⟩) with ⟨_, beyond⟩ | ⟨token, changed⟩
        · omega
        · cases same.symm.trans changed
    · rcases List.mem_cons.mp member with rfl | older
      · cases same.symm.trans watches
      · exact receiving.channel other older topic watcher earlier watches found
    · rcases List.mem_cons.mp member with rfl | older
      · rcases noticed.looks (.inl ⟨topic, watches⟩) with ⟨_, beyond⟩ | ⟨token, changed⟩
        · rw [beyond, List.getElem?_eq_none (Nat.le_refl _)] at found
          cases found
        · cases watches.symm.trans changed
      · exact receiving.channel other older topic watcher receiver watches found
  · intro watcher receiver known
    rcases noticed.receiver known with
      ⟨topic, _, rfl, channels⟩ | ⟨token, earlier, _, found, rfl, channels⟩ | found
    · refine ⟨_, ?_, Nat.le_refl _⟩
      rw [channels]
      exact version_subscribe _ topic
    · obtain ⟨current, version, _⟩ := receiving.seen watcher earlier found
      refine ⟨current, ?_, ?_⟩
      · rw [channels]
        exact version
      · rw [WatchReceiver.look, version]
        exact Nat.le_refl _
    · obtain ⟨current, version, bounded⟩ := receiving.seen watcher receiver found
      obtain ⟨later, laterVersion, grown⟩ := noticed.version version
      exact ⟨later, laterVersion, bounded.trans grown⟩

section Histories

variable {validJson : String → Bool} {initial : Database}

/-- The performed actions of the delivery side, in an order its calls allow. -/
abbrev DeliveryTrace (validJson : String → Bool) (initial : Database) :
    List DeliveryEntry → DeliveryState → Prop :=
  Pool.Trace (deliveryComponent validJson) Wakes (.start initial)

variable {state : DeliveryState} {watcher : Nat} {receiver : WatchReceiver}

theorem no_watcher_of_crash
    (known : state.crash.watchers[watcher]? = some (some receiver)) : False := by
  simp only [DeliveryState.crash, List.getElem?_map, Option.map_eq_some_iff] at known
  obtain ⟨_, _, same⟩ := known
  cases same

theorem receiving_of_trace {history : List DeliveryEntry}
    (trace : DeliveryTrace validJson initial history state) :
    Receiving state history := by
  induction trace with
  | start =>
    constructor
    · intro entry member
      cases member
    · intro entry member
      cases member
    · intro entry member
      cases member
    · intro watcher receiver known
      cases known
  | crash _ receiving =>
    refine ⟨?_, receiving.owner, ?_, ?_⟩
    · intro entry member watcher looks
      have below := receiving.below entry member watcher looks
      simpa [deliveryComponent, DeliveryState.crash] using below
    · intro entry member topic watcher receiver watches known
      exact absurd known no_watcher_of_crash
    · intro watcher receiver known
      exact absurd known no_watcher_of_crash
  | act _ _ _ performed allowed receiving =>
    exact receiving_act receiving (perform_noticed performed) allowed

variable {newer older : List DeliveryEntry} {entry : DeliveryEntry}

/-- From a notification on, whoever has registered has something newer to see or has
looked. -/
theorem newer_or_looked {channel : Option String} (raised : entry.exchange = ⟨.raise channel, ()⟩)
    (trace : DeliveryTrace validJson initial (newer ++ entry :: older) state)
    (known : state.watchers[watcher]? = some (some receiver))
    (listens : receiver.channel = channel) :
    (∃ current, state.notifications.version channel = some current ∧ receiver.seen < current) ∨
      ∃ look ∈ newer, Looks watcher look.exchange := by
  have cut := trace.cut
  revert watcher receiver
  refine Pool.Trace.since
    (fun state newer =>
      ∀ {watcher : Nat} {receiver : WatchReceiver},
        state.watchers[watcher]? = some (some receiver) → receiver.channel = channel →
          (∃ current, state.notifications.version channel = some current ∧
              receiver.seen < current) ∨
            ∃ look ∈ newer, Looks watcher look.exchange)
    ?_ ?_ ?_ trace
  · intro watcher receiver known listens
    obtain ⟨before, ⟨choice, performed⟩, _⟩ := cut
    have noticed : Noticed entry.before entry.after entry.exchange := perform_noticed performed
    rw [raised] at noticed
    cases noticed with
    | raise _ channels receivers =>
      rw [receivers] at known
      obtain ⟨current, version, bounded⟩ := (receiving_of_trace before).seen watcher receiver known
      rw [listens] at version
      refine .inl ⟨current + 1, ?_, Nat.lt_succ_of_le bounded⟩
      rw [channels, version_raise version, if_pos rfl]
    | other _ _ silent => exact absurd rfl (silent channel)
  · intro state newer held watcher receiver known
    exact absurd known no_watcher_of_crash
  · intro next newer choice earlier held performed allowed watcher receiver known listens
    have noticed := perform_noticed performed
    rcases noticed.receiver known with ⟨topic, same, _⟩ | ⟨token, previous, same, _⟩ | found
    · exact .inr ⟨next, .head _, .inl ⟨topic, same⟩⟩
    · exact .inr ⟨next, .head _, .inr ⟨token, same⟩⟩
    · rcases held found listens with ⟨current, version, ahead⟩ | ⟨look, member, looks⟩
      · obtain ⟨later, laterVersion, grown⟩ := noticed.version version
        exact .inl ⟨later, laterVersion, Nat.lt_of_lt_of_le ahead grown⟩
      · exact .inr ⟨look, .tail _ member, looks⟩

variable {returned : Finished Call Outcome} {next : DeliveryState} {pool : DeliveryPool}

theorem mem_finished_of_perform {choice : DeliveryChoice}
    {request : DeliveryAction} {answer : request.Reply} (member : returned ∈ state.broker.finished)
    (performed : state.perform validJson choice request = some (answer, next)) :
    returned ∈ next.broker.finished := by
  cases request with
  | start =>
    rw [DeliveryState.perform] at performed
    obtain ⟨broker, stepped, same⟩ := Option.map_eq_some_iff.mp performed
    cases same
    exact Pool.mem_finished_of_step member stepped
  | advance =>
    obtain ⟨broker, stepped, same⟩ := Option.map_eq_some_iff.mp performed
    cases same
    exact Pool.mem_finished_of_step member stepped
  | await =>
    obtain ⟨found, _, same⟩ := Option.map_eq_some_iff.mp performed
    cases same
    exact member
  | begin | finish =>
    obtain ⟨tasks, _, same⟩ := Option.map_eq_some_iff.mp performed
    cases same
    exact member
  | _ =>
    simp only [DeliveryState.perform, DeliveryState.awaitAck,
      DeliveryState.awaitChange] at performed
    repeat' split at performed
    all_goals
      cases performed
      try exact member

theorem mem_finished_of_trace
    (trace : DeliveryTrace validJson initial (newer ++ entry :: older) state)
    (member : returned ∈ entry.before.broker.finished) :
    returned ∈ state.broker.finished := by
  obtain ⟨_, ⟨choice, performed⟩, _⟩ := trace.cut
  refine Pool.Trace.since (fun state _ => returned ∈ state.broker.finished)
    (mem_finished_of_perform member performed) ?_ ?_ trace
  · intro state newer held
    exact held
  · intro next newer choice _ held performed _
    exact mem_finished_of_perform held performed

theorem Noticed.alive {exchange : DeliveryExchange} (noticed : Noticed state next exchange)
    (known : state.watchers[watcher]? = some (some receiver)) :
    ∃ later, next.watchers[watcher]? = some (some later) := by
  cases noticed with
  | watch _ _ receivers =>
    rw [receivers]
    have bounded := (List.getElem?_eq_some_iff.mp known).1
    exact ⟨receiver, (List.getElem?_append_left bounded).trans known⟩
  | changed _ _ _ _ _ receivers =>
    rw [receivers, List.getElem?_set]
    split
    · next same =>
      rw [same, if_pos (List.getElem?_eq_some_iff.mp known).1]
      exact ⟨_, rfl⟩
    · exact ⟨receiver, known⟩
  | raise _ _ receivers | other _ _ _ _ receivers => exact ⟨receiver, receivers ▸ known⟩

theorem Noticed.registered {topic : String}
    (noticed : Noticed state next ⟨.watch topic, watcher⟩) :
    ∃ receiver, next.watchers[watcher]? = some (some receiver) := by
  cases noticed with
  | watch _ _ receivers =>
    rw [receivers]
    exact ⟨_, List.getElem?_concat_length⟩
  | other _ blind =>
    exact absurd (.inl ⟨topic, rfl⟩) (blind watcher)

def Manned (pool : DeliveryPool) : Prop :=
  ∀ thread running, pool.threads thread = some running → ∀ (topic : String) (watcher : Nat),
      (⟨.watch topic, watcher⟩ : DeliveryExchange) ∈ ownPath thread pool.history →
        ∃ receiver, pool.shared.watchers[watcher]? = some (some receiver)

theorem manned_step {reached : DeliveryPool} {event : PoolEvent DeliveryCall DeliveryChoice}
    (accounted : Pool.Accounted Wakes (fun _ _ _ => True) pool) (manned : Manned pool)
    (stepped : Pool.step (deliveryComponent validJson) pool event = some reached) :
    Manned reached := by
  intro thread running found topic watcher watches
  rcases Pool.step_cases stepped with
    ⟨call, _, rfl⟩ | ⟨_, runner, entry, next, _, acts, rfl⟩ | ⟨_, rfl⟩
  · rw [Pool.settle_history] at watches
    rw [Pool.settle_shared]
    rcases Pool.settle_running found with ⟨rfl, _⟩ | ⟨_, before⟩
    · rw [accounted.ownPath_fresh] at watches
      cases watches
    · exact manned thread running before topic watcher watches
  · rw [Pool.settle_history] at watches
    rw [Pool.settle_shared]
    have noticed : Noticed entry.before entry.after entry.exchange :=
      perform_noticed acts.performed
    have kept : ∀ {running}, pool.threads thread = some running →
        (⟨.watch topic, watcher⟩ : DeliveryExchange) ∈ ownPath thread pool.history →
          ∃ receiver, entry.after.watchers[watcher]? = some (some receiver) := by
      intro running before older
      obtain ⟨receiver, known⟩ := manned thread running before topic watcher older
      rw [← acts.previous] at known
      exact noticed.alive known
    rcases Pool.settle_running found with ⟨rfl, _⟩ | ⟨different, before⟩
    · rw [ownPath_cons_self] at watches
      rcases List.mem_cons.mp watches with newest | older
      · rw [← newest] at noticed
        exact noticed.registered
      · exact kept acts.found older
    · rw [ownPath_cons_of_ne (Ne.symm different)] at watches
      exact kept before watches
  · cases found

theorem manned_of_deliveries {events : DeliveryEvents}
    (ran : deliveries validJson initial events = some pool) : Manned pool := by
  refine Pool.invariant_along DeliveryCall.wakes
    (fun accounted manned _ stepped => manned_step accounted manned stepped) ?_
    (along_of_mem fun _ _ => trivial) ran
  intro thread running found
  cases found

/-- What a thread has enqueued had returned by the time of any of its notifications. -/
theorem returned_of_raised (trace : DeliveryTrace validJson initial (newer ++ entry :: older) state)
    {channel : Option String} (raised : entry.exchange = ⟨.raise channel, ()⟩) {call : Call}
    {number : Nat} (enqueues : call.enqueuedTopics ≠ [])
    (started :
      (⟨.start call, number⟩ : DeliveryExchange) ∈ ownPath entry.thread (newer ++ entry :: older)) :
    ∃ returned ∈ entry.before.broker.finished, returned.thread = number := by
  have before : (⟨.start call, number⟩ : DeliveryExchange) ∈ ownPath entry.thread older := by
    rw [ownPath_append, ownPath_cons_self, raised] at started
    rcases List.mem_append.mp started with later | same
    · -- a call enqueues only before it notifies
      obtain ⟨start, member, own, starts⟩ := exists_performed_of_mem_ownPath later
      obtain ⟨after, between, rfl⟩ := List.append_of_mem member
      rw [List.append_assoc, List.cons_append] at trace
      obtain ⟨_, _, allowed⟩ := trace.cut
      rw [show start.request = .start call from congrArg Exchange.request starts] at allowed
      refine absurd ?_ (allowed enqueues channel)
      rw [own, ← raised]
      exact mem_ownPath (List.mem_append_right _ (.head _)) rfl
    · rcases List.mem_cons.mp same with same | older
      · cases same
      · exact older
  obtain ⟨earlier, _, allowed⟩ := trace.cut
  rw [show entry.request = .raise channel from congrArg Exchange.request raised] at allowed
  obtain ⟨outcome, awaited⟩ := allowed call number before enqueues
  obtain ⟨wait, member, _, waits⟩ := exists_performed_of_mem_ownPath awaited
  obtain ⟨between, oldest, rfl⟩ := List.append_of_mem member
  obtain ⟨_, ⟨choice, performed⟩, _⟩ := earlier.cut
  have found : ∃ returned ∈ wait.before.broker.finished, returned.thread = number := by
    obtain ⟨thread, call, request, answer, before, after⟩ := wait
    cases waits
    obtain ⟨returned, found, _⟩ := Option.map_eq_some_iff.mp performed
    have same := List.find?_some found
    exact ⟨returned, List.mem_of_find?_eq_some found, of_decide_eq_true same⟩
  obtain ⟨returned, finished, same⟩ := found
  exact ⟨returned, mem_finished_of_trace earlier finished, same⟩

/-! ## Blocked subscribers -/

/-- The loop that a thread is, and its receiver, if it waits for fresh messages. -/
def waitsFor (pool : DeliveryPool) (thread : Nat) : Option (SubscribeLoop × Nat) :=
  match pool.threads thread with
  | some ⟨.subscribe args _, _, .perform (.awaitChange watcher _) _⟩ => some (args, watcher)
  | _ => none

/-- The channel of a receiver has no newer version than the one seen. -/
def nothingNewer (state : DeliveryState) (watcher : Nat) : Bool :=
  match state.watchers[watcher]? with
  | some (some receiver) => !receiver.hasChanged state.notifications
  | _ => true

/-- A subscribe loop waits for fresh messages, with nothing newer to see on its
channel. -/
def Blocked (pool : DeliveryPool) (thread : Nat) (args : SubscribeLoop) : Prop :=
  ∃ watcher, waitsFor pool thread = some (args, watcher) ∧ nothingNewer pool.shared watcher = true

theorem waitsFor_eq_some {thread : Nat} {args : SubscribeLoop}
    (waits : waitsFor pool thread = some (args, watcher)) :
    ∃ bound born token next, pool.threads thread =
        some ⟨.subscribe args bound, born, .perform (.awaitChange watcher token) next⟩ := by
  unfold waitsFor at waits
  split at waits
  · next found =>
    cases waits
    exact ⟨_, _, _, _, found⟩
  · cases waits

/-- A thread has stored a new message of the topic with the call that has this number,
and has notified the subscribers of the topic and those with wildcards. -/
structure Notified (history : List DeliveryEntry) (writer number : Nat)
    (topic id : String) : Prop where
  stored :
    ∃ call results, (⟨.start call, number⟩ : DeliveryExchange) ∈ ownPath writer history ∧
      (⟨.await number, .ok (.stored results)⟩ : DeliveryExchange) ∈ ownPath writer history ∧
      (topic, id, false) ∈ call.enqueuedTopics.zip results
  topicSent : (⟨.raise (some topic), ()⟩ : DeliveryExchange) ∈ ownPath writer history
  globalSent : (⟨.raise none, ()⟩ : DeliveryExchange) ∈ ownPath writer history

/-- A thread has started a claim for the filter after a call of the database had
returned, and the claim found nothing. -/
def ClaimedAfter (history : List DeliveryEntry) (thread : Nat) (filter : String)
    (number : Nat) : Prop :=
  ∃ claim ∈ history, claim.thread = thread ∧
    (∃ returned ∈ claim.before.broker.finished, returned.thread = number) ∧
    ∃ visibility limit started value,
      claim.exchange = ⟨.start (.claimBatchForFilter filter visibility limit), started⟩ ∧
      (⟨.await started, .ok value⟩ : DeliveryExchange) ∈ ownPath thread history ∧
      value.messages = []

theorem Notified.channel {history : List DeliveryEntry} {writer number : Nat}
    {topic id filter : String} (notified : Notified history writer number topic id)
    (matched : filterMatches filter topic = true) :
    (⟨.raise (channelOf filter), ()⟩ : DeliveryExchange) ∈ ownPath writer history := by
  have sent : ∀ {channel}, channelOf filter = channel →
      (⟨.raise channel, ()⟩ : DeliveryExchange) ∈ ownPath writer history →
        (⟨.raise (channelOf filter), ()⟩ : DeliveryExchange) ∈ ownPath writer history := by
    rintro channel rfl sent
    exact sent
  by_cases wildcard : isWildcardFilter filter = true
  · exact sent (if_pos wildcard) notified.globalSent
  · have exact := eq_of_filterMatches (Bool.not_eq_true _ ▸ wildcard) matched
    exact sent ((if_neg wildcard).trans (congrArg some exact)) notified.topicSent

/-- A loop that waits after a look has claimed since. -/
theorem claimed_since_look {thread : Nat} {filter : String}
    (claimed : ClaimedSinceLook watcher filter (ownPath thread (newer ++ older)))
    {look : DeliveryEntry} (member : look ∈ newer) (own : look.thread = thread)
    (looks : Looks watcher look.exchange) :
    ∃ claim ∈ newer, claim.thread = thread ∧ ∃ visibility limit started value,
        claim.exchange = ⟨.start (.claimBatchForFilter filter visibility limit), started⟩ ∧
        (⟨.await started, .ok value⟩ : DeliveryExchange) ∈ ownPath thread (newer ++ older) ∧
        value.messages = [] := by
  obtain ⟨recent, rest, split⟩ := List.append_of_mem (mem_ownPath member own)
  rw [ownPath_append, split, List.append_assoc, List.cons_append] at claimed
  obtain ⟨visibility, limit, started, value, asked, returned, empty⟩ :=
    claimed recent look.exchange (rest ++ ownPath thread older) rfl looks
  have onPath : ∀ exchange ∈ recent, exchange ∈ ownPath thread newer := by
    intro exchange within
    rw [split]
    exact List.mem_append_left _ within
  obtain ⟨claim, claimMember, claimOwn, same⟩ := exists_performed_of_mem_ownPath (onPath _ asked)
  refine ⟨claim, claimMember, claimOwn, visibility, limit, started, value, same, ?_, empty⟩
  rw [ownPath_append]
  exact List.mem_append_left _ (onPath _ returned)

end Histories

/-- No wake-up is lost: a subscriber that waits with nothing newer to see has claimed
since each message its filter matches was stored, once the message is notified. -/
theorem blocked_subscriber_has_claimed (validJson : String → Bool) (initial : Database)
    (events : DeliveryEvents) (pool : DeliveryPool)
    (ran : deliveries validJson initial events = some pool) (thread : Nat) (args : SubscribeLoop)
    (blocked : Blocked pool thread args) (writer number : Nat) (topic id : String)
    (notified : Notified pool.history writer number topic id)
    (matched : filterMatches args.topic topic = true) :
    ClaimedAfter pool.history thread args.topic number := by
  have trace : DeliveryTrace validJson initial pool.history pool.shared :=
    Pool.trace_of_replay DeliveryCall.wakes ran
  have accounted : Pool.Accounted Wakes (fun _ _ _ => True) pool :=
    Pool.accounted_replay DeliveryCall.wakes ran
  have receiving := receiving_of_trace trace
  obtain ⟨watcher, waits, nothing⟩ := blocked
  obtain ⟨bound, born, token, next, found⟩ := waitsFor_eq_some waits
  obtain ⟨⟨_, _, same, watches, claimed⟩, _⟩ := accounted.running found
  cases same
  obtain ⟨receiver, known⟩ := manned_of_deliveries ran _ _ found _ _ watches
  obtain ⟨register, registered, registeredBy, watch⟩ := exists_performed_of_mem_ownPath watches
  have listens := receiving.channel register registered _ _ _ watch known
  -- cut the history at the notification on the loop's channel
  obtain ⟨_, _, split⟩ := List.append_of_mem (notified.channel matched)
  obtain ⟨newer, raise, older, cut, own, raised, _⟩ := exists_split_of_ownPath split
  obtain ⟨call, results, started, _, fresh⟩ := notified.stored
  rw [cut] at trace started claimed ⊢
  have stored : ∃ returned ∈ raise.before.broker.finished, returned.thread = number := by
    refine returned_of_raised trace raised ?_ (own ▸ started)
    intro none
    rw [none] at fresh
    cases fresh
  obtain ⟨returned, finished, isNumber⟩ := stored
  rcases newer_or_looked raised trace known listens with
    ⟨current, version, ahead⟩ | ⟨look, member, looks⟩
  · -- the loop would have something newer to see
    rw [nothingNewer, known] at nothing
    simp only [WatchReceiver.hasChanged, listens, version, Option.any_some,
      Bool.not_eq_true', decide_eq_false_iff_not, not_not] at nothing
    omega
  · have sameThread :=
      receiving.owner register registered look
        (cut ▸ List.mem_append_left _ member) watcher (.inl ⟨_, watch⟩) looks
    obtain ⟨claim, claimMember, claimOwn, asked⟩ :=
      claimed_since_look claimed member (sameThread.symm.trans registeredBy) looks
    refine ⟨claim, List.mem_append_left _ claimMember, claimOwn, ?_, asked⟩
    obtain ⟨after, between, rfl⟩ := List.append_of_mem claimMember
    rw [List.append_assoc, List.cons_append] at trace
    obtain ⟨earlier, _, _⟩ := trace.cut
    exact ⟨returned, mem_finished_of_trace earlier finished, isNumber⟩

/-- A loop for one topic that claims one message at a time. -/
def jobsLoop : SubscribeLoop where
  config := ⟨30, 0, 1, 1, 3⟩
  token := 0
  topic := "jobs"
  session := "session"
  consumerId := ""
  tx := 0
  peer := ""
  protocol := "grpc"
  version := ""
  host := ""

/-- Some steps of a call in which the scheduler has nothing to decide. -/
def steps (thread count : Nat) : DeliveryEvents :=
  List.replicate count (.advance thread {})

/-- One step of a call of the database, by a thread of its own. -/
def engineStep (thread call : Nat) (choice : Choice) : DeliveryEvents :=
  [.spawn (.engine call), .advance thread { database := choice }]

/-- A message is stored and notified, another consumer takes it, and a loop that has
just registered claims and then waits. -/
def claimsAndWaits : DeliveryEvents :=
  .spawn (.write [⟨"s13-m1", none, "jobs", [104, 105], "{}"⟩] 1) :: steps 0 2 ++
  engineStep 1 0 {} ++ engineStep 2 0 {} ++ engineStep 3 0 {} ++ steps 0 3 ++
  .spawn (.background (.claimBatchForTopic "jobs" second 1)) :: steps 4 1 ++
  engineStep 5 1 {} ++ engineStep 6 1 { uuid := "lease-1" } ++
  engineStep 7 1 { order := ["s13-m1"] } ++
  .spawn (.subscribe jobsLoop 2) :: steps 8 6 ++
  .advance 8 { flag := true } :: steps 8 2 ++
  engineStep 9 2 {} ++ engineStep 10 2 { uuid := "lease-2" } ++ engineStep 11 2 {} ++
  steps 8 2

theorem blocked_subscriber_has_claimed_jobs : ∃ pool,
    deliveries (fun _ => true) Database.empty claimsAndWaits = some pool ∧
      Blocked pool 8 jobsLoop ∧ Notified pool.history 0 0 "jobs" "s13-m1" ∧
      ClaimedAfter pool.history 8 "jobs" 0 := by
  obtain ⟨pool, ran, blocked, started, returned, topicSent, globalSent⟩ : ∃ pool,
      deliveries (fun _ => true) Database.empty claimsAndWaits = some pool ∧
        (waitsFor pool 8 = some (jobsLoop, 0) ∧ nothingNewer pool.shared 0 = true) ∧
        (⟨.start (.enqueueBatch [⟨"s13-m1", none, "jobs", [104, 105], "{}"⟩]), 0⟩ :
          DeliveryExchange) ∈ ownPath 0 pool.history ∧
        (⟨.await 0, .ok (.stored [("s13-m1", false)])⟩ : DeliveryExchange) ∈
          ownPath 0 pool.history ∧
        (⟨.raise (some "jobs"), ()⟩ : DeliveryExchange) ∈ ownPath 0 pool.history ∧
        (⟨.raise none, ()⟩ : DeliveryExchange) ∈ ownPath 0 pool.history :=
    exists_some_of_check (by decide +kernel)
  have waits : Blocked pool 8 jobsLoop := ⟨0, blocked⟩
  have notified : Notified pool.history 0 0 "jobs" "s13-m1" :=
    ⟨⟨_, _, started, returned, .head _⟩, topicSent, globalSent⟩
  exact ⟨pool, ran, waits, notified,
    blocked_subscriber_has_claimed _ _ _ pool ran 8 jobsLoop waits 0 0 "jobs" "s13-m1"
      notified (by decide)⟩

end CanglingBroker
