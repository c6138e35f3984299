import CanglingBroker.Database.Tallies
import CanglingBroker.Delivery.Calls

/-!
# The fan-out of an ephemeral message

An ephemeral message is for the streams that are there when it arrives.  The streams come
from two levels of hash maps, so their order is open; whether one takes a message is seen
only when it is sent.  In `single` mode the list is cut to its first stream before that.
-/

namespace CanglingBroker

open Foundation
open Program (Ran ran_ask ran_bind)

namespace TopicSubscribers

/-- A listing of the table: the filters in some order, and the sessions of each in some
order. -/
structure Visits (subscribers : TopicSubscribers)
    (listing : List (String × List (String × LiveEntry))) : Prop where
  filters : (listing.map Prod.fst).Perm subscribers.keys
  sessions :
    ∀ visit ∈ listing, ∃ sessions, subscribers.lookup visit.1 = some sessions ∧
        visit.2.Perm (sessions.entries.map fun entry => (entry.1, entry.2))

def walkOf (listing : List (String × List (String × LiveEntry))) :
    List (String × String × LiveEntry) :=
  listing.flatMap fun visit => visit.2.map fun entry => (visit.1, entry.1, entry.2)

/-- What `matching_senders` can answer. -/
def Offers (subscribers : TopicSubscribers) (topic : String)
    (senders : List (String × StreamSender)) : Prop :=
  ∃ listing, subscribers.Visits listing ∧ senders.Perm
      ((matchingSenders (walkOf listing) topic).entries.map fun entry => (entry.1, entry.2))

variable {subscribers : TopicSubscribers} {topic filter session : String}
  {entry : LiveEntry} {senders : List (String × StreamSender)}

theorem mem_pairs {Value : Type} {dict : Dict String Value} {key : String} {value : Value} :
    (key, value) ∈ dict.entries.map (fun entry => (entry.1, entry.2)) ↔
      dict.lookup key = some value := by
  have seen : dict.entries.map (fun entry => (entry.1, entry.2)) = Dict.rows id dict := rfl
  rw [seen, Dict.mem_rows, Option.map_id, id]

theorem lists_walkOf {listing : List (String × List (String × LiveEntry))}
    (visits : subscribers.Visits listing) : subscribers.Lists (walkOf listing) := by
  intro topic session entry
  unfold walkOf liveEntry
  rw [List.mem_flatMap, Option.bind_eq_some_iff]
  constructor
  · rintro ⟨visit, member, inside⟩
    obtain ⟨pair, listed, same⟩ := List.mem_map.mp inside
    cases same
    obtain ⟨sessions, found, order⟩ := visits.sessions visit member
    exact ⟨sessions, found, mem_pairs.mp (order.mem_iff.mp listed)⟩
  · rintro ⟨sessions, found, inside⟩
    have known : topic ∈ subscribers.keys := by
      rw [← AList.mem_keys, ← AList.lookup_isSome, found]
      rfl
    obtain ⟨visit, member, rfl⟩ := List.mem_map.mp (visits.filters.mem_iff.mpr known)
    obtain ⟨same, again, order⟩ := visits.sessions visit member
    rw [found] at again
    cases again
    refine ⟨visit, member, List.mem_map.mpr ⟨(session, entry), ?_, rfl⟩⟩
    exact order.mem_iff.mpr (mem_pairs.mpr inside)

/-- Every entry of the table can come up first. -/
theorem exists_visits_first (live : subscribers.liveEntry filter session = some entry) :
    ∃ listing rest, subscribers.Visits listing ∧
      walkOf listing = (filter, session, entry) :: rest := by
  obtain ⟨sessions, found, inside⟩ := Option.bind_eq_some_iff.mp live
  have outer := List.perm_cons_erase (AList.mem_lookup_iff.mp found)
  have inner := List.perm_cons_erase (mem_pairs.mpr inside)
  refine ⟨(filter, (session, entry) :: (sessions.entries.map fun entry => (entry.1, entry.2)).erase
    (session, entry)) ::
      (subscribers.entries.erase ⟨filter, sessions⟩).map fun visit =>
        (visit.1, visit.2.entries.map fun entry => (entry.1, entry.2)),
    _, ⟨?_, ?_⟩, rfl⟩
  · have keys := outer.map Sigma.fst
    rw [List.map_cons, List.map_map]
    exact keys.symm
  · intro visit member
    rcases List.mem_cons.mp member with rfl | later
    · exact ⟨sessions, found, inner.symm⟩
    · obtain ⟨stored, listed, rfl⟩ := List.mem_map.mp later
      exact ⟨stored.2, AList.mem_lookup_iff.mpr (List.mem_of_mem_erase listed), List.Perm.refl _⟩

theorem collectSenders_keeps_sender {sender : StreamSender}
    {walk : List (String × String × LiveEntry)} {seen : Dict String StreamSender}
    (known : seen.lookup session = some sender) :
    (collectSenders topic walk seen).lookup session = some sender := by
  induction walk generalizing seen with
  | nil => exact known
  | cons visit _ ih =>
    rw [collectSenders]
    split
    · next taken =>
      refine ih ?_
      have other : session ≠ visit.2.1 := by
        rintro rfl
        simp [known] at taken
      rw [AList.lookup_insert_ne other]
      exact known
    · exact ih known

theorem exists_offers_first (live : subscribers.liveEntry filter session = some entry)
    (matched : filterMatches filter topic = true) :
    ∃ rest, subscribers.Offers topic ((session, entry.tx) :: rest) := by
  obtain ⟨listing, rest, visits, first⟩ := exists_visits_first live
  have chosen : (matchingSenders (walkOf listing) topic).lookup session = some entry.tx := by
    rw [matchingSenders, first, collectSenders, if_pos (by simp [matched])]
    exact collectSenders_keeps_sender (AList.lookup_insert _)
  exact ⟨_, listing, visits, (List.perm_cons_erase (mem_pairs.mpr chosen)).symm⟩

theorem exists_offers : ∃ senders, subscribers.Offers topic senders := by
  refine ⟨_, subscribers.entries.map fun visit =>
    (visit.1, visit.2.entries.map fun entry => (entry.1, entry.2)),
    ⟨?_, ?_⟩, List.Perm.refl _⟩
  · rw [List.map_map]
    exact List.Perm.refl _
  · intro visit member
    obtain ⟨stored, listed, rfl⟩ := List.mem_map.mp member
    exact ⟨stored.2, AList.mem_lookup_iff.mpr listed, List.Perm.refl _⟩

theorem Offers.origin (offers : subscribers.Offers topic senders) {target : String × StreamSender}
    (member : target ∈ senders) :
    ∃ filter entry, subscribers.liveEntry filter target.1 = some entry ∧
      filterMatches filter topic = true ∧ entry.tx = target.2 := by
  obtain ⟨listing, visits, order⟩ := offers
  exact matchingSenders_origin (lists_walkOf visits) (mem_pairs.mp (order.mem_iff.mp member))

theorem Offers.complete (offers : subscribers.Offers topic senders)
    (live : subscribers.liveEntry filter session = some entry)
    (matched : filterMatches filter topic = true) :
    ∃ sender, (session, sender) ∈ senders := by
  obtain ⟨listing, visits, order⟩ := offers
  obtain ⟨sender, found⟩ :=
    Option.isSome_iff_exists.mp (matchingSenders_complete (lists_walkOf visits) live matched)
  exact ⟨sender, order.mem_iff.mpr (mem_pairs.mpr found)⟩

theorem Offers.nodup (offers : subscribers.Offers topic senders) :
    (senders.map Prod.fst).Nodup := by
  obtain ⟨listing, visits, order⟩ := offers
  have keys := order.map Prod.fst
  rw [List.map_map] at keys
  exact keys.nodup_iff.mpr (matchingSenders (walkOf listing) topic).keys_nodup

end TopicSubscribers

/-! ## A fan-out on its own -/

/-- What a fan-out works on: the database, what its calls have answered, and the copies
that streams have taken. -/
structure FanoutWorld where
  db : Database
  outcomes : List Outcome
  copies : List (StreamSender × SatwayMessage)

section World

variable (validJson : String → Bool) (subscribers : TopicSubscribers)
  (accepts : StreamSender → Bool)

/-- How the actions of a fan-out are answered when no statement fails: the table is walked
in some order, and the streams that accept take what they are sent. -/
def FanoutWorld.responds (world : FanoutWorld) :
    (request : DeliveryAction) → request.Reply → FanoutWorld → Prop
  | .start call, thread, after =>
    thread = world.outcomes.length ∧ ∃ outcome db,
        Ran (Answered fun _ => True) (call.body validJson).run world.db outcome db ∧
          after = { world with db := db, outcomes := world.outcomes ++ [outcome] }
  | .await thread, outcome, after => world.outcomes[thread]? = some outcome ∧ after = world
  | .newLease, _, after => after = world
  | .now, _, after => after = world
  | .matchingSenders topic, senders, after => subscribers.Offers topic senders ∧ after = world
  | .send stream outgoing _, sent, after =>
    sent = accepts stream ∧ after =
        if accepts stream then
          { world with copies := world.copies ++ [(stream, outgoing)] }
        else
          world
  | _, _, _ => False

variable {validJson subscribers accepts} {world after : FanoutWorld}

theorem ran_database {call : Call} {outcome : Outcome} :
    Ran (FanoutWorld.responds validJson subscribers accepts) (Delivery.database call) world
        outcome after ↔
      ∃ db, Ran (Answered fun _ => True) (call.body validJson).run world.db outcome db ∧
          after = { world with db := db, outcomes := world.outcomes ++ [outcome] } := by
  unfold Delivery.database
  rw [ran_bind]
  constructor
  · rintro ⟨thread, started, asked, awaited⟩
    obtain ⟨rfl, given, db, ran, rfl⟩ := ran_ask.mp asked
    obtain ⟨found, rfl⟩ := ran_ask.mp awaited
    rw [List.getElem?_concat_length] at found
    cases found
    exact ⟨db, ran, rfl⟩
  · rintro ⟨db, ran, rfl⟩
    refine ⟨world.outcomes.length,
      { world with db := db, outcomes := world.outcomes ++ [outcome] },
      ran_ask.mpr ⟨rfl, outcome, db, ran, rfl⟩, ran_ask.mpr ⟨?_, rfl⟩⟩
    exact List.getElem?_concat_length

theorem ran_fanout {outgoing : SatwayMessage} {targets : List (String × StreamSender)}
    {sent : Nat} :
    Ran (FanoutWorld.responds validJson subscribers accepts) (Delivery.fanout outgoing targets)
        world sent after ↔
      sent = (targets.filter fun target => accepts target.2).length ∧ after =
          { world with
            copies :=
              world.copies ++ (targets.filter fun target => accepts target.2).map
                  fun target => (target.2, outgoing) } := by
  induction targets generalizing world sent after with
  | nil =>
    rw [Delivery.fanout, List.filter_nil, List.map_nil, List.append_nil]
    exact Iff.rfl
  | cons target _ ih =>
    rw [Delivery.fanout, ran_bind]
    constructor
    · rintro ⟨took, middle, asked, rest⟩
      obtain ⟨rfl, rfl⟩ := ran_ask.mp asked
      obtain ⟨later, final, looped, rfl, rfl⟩ := ran_bind.mp rest
      obtain ⟨rfl, rfl⟩ := ih.mp looped
      cases taken : accepts target.2 <;> simp [taken]
    · rintro ⟨rfl, rfl⟩
      refine
        ⟨accepts target.2, _, ran_ask.mpr ⟨rfl, rfl⟩, ran_bind.mpr ⟨_, _, ih.mpr ⟨rfl, rfl⟩, ?_⟩⟩
      cases taken : accepts target.2
      · exact ⟨by simp [taken], by simp [taken]⟩
      · exact ⟨by simp [taken], by simp [taken]⟩

def DropsMessage (topic : String) (world after : FanoutWorld)
    (value : Except Unit Delivery.Ingested) : Prop :=
  (∃ id, value = .ok (.dropped id)) ∧ after.copies = world.copies ∧
    AddsTallies topic (1, 0, 0, 0, 1) world.db after.db

/-- Each of the receivers has one copy of the message more, and nobody else; it was counted
as delivered, once. -/
def SendsMessage (topic : String) (payload : List UInt8) (attributes : String)
    (receivers : List (String × StreamSender)) (world after : FanoutWorld)
    (value : Except Unit Delivery.Ingested) : Prop :=
  ∃ outgoing : SatwayMessage,
    outgoing.topic = topic ∧ outgoing.payload = payload ∧ outgoing.attributes = attributes ∧
      value = .ok (.queued outgoing.messageId false) ∧
      after.copies = world.copies ++ receivers.map (fun target => (target.2, outgoing)) ∧
      AddsTallies topic (1, 0, 1, 0, 0) world.db after.db

/-- The streams a fan-out sends to, of those it was offered. -/
def targetsOf (delivery : DeliveryMode) (senders : List (String × StreamSender)) :
    List (String × StreamSender) :=
  if delivery = .single then senders.take 1 else senders

/-- The rest of `fanout_ephemeral` when the targets are known. -/
def sendTo (topic : String) (payload : List UInt8) (attributes : String)
    (targets : List (String × StreamSender)) :
    Delivery (Except Unit Delivery.Ingested) := do
  if targets.isEmpty then
    Delivery.acceptDropped topic
  else
    let messageId ← Delivery.act .newLease
    let createdAt ← Delivery.act .now
    let sent ←
      Delivery.fanout
        { messageId := messageId
          topic := topic
          payload := payload
          attributes := attributes
          createdAt := createdAt
          lease := "" }
        targets
    if sent = 0 then
      Delivery.acceptDropped topic
    else
      match ← Delivery.database (.recordLiveFanout topic) with
      | .ok _ => pure (.ok (.queued messageId false))
      | .error _ => pure (.error ())

theorem fanoutEphemeral_eq (topic : String) (payload : List UInt8) (attributes : String)
    (delivery : DeliveryMode) :
    Delivery.fanoutEphemeral topic payload attributes delivery =
      Delivery.act (.matchingSenders topic) >>= fun matching =>
        sendTo topic payload attributes (targetsOf delivery matching) :=
  rfl

variable {topic : String} {payload : List UInt8} {attributes : String}
  {targets : List (String × StreamSender)} {value : Except Unit Delivery.Ingested}

theorem dropsMessage_of_ran
    (ran :
      Ran (FanoutWorld.responds validJson subscribers accepts)
        (Delivery.acceptDropped topic) world value after) :
    DropsMessage topic world after value := by
  unfold Delivery.acceptDropped at ran
  obtain ⟨outcome, middle, called, rest⟩ := ran_bind.mp ran
  obtain ⟨db, ran, rfl⟩ := ran_database.mp called
  obtain ⟨inner, counted, same⟩ := Program.ran_map.mp ran
  obtain ⟨⟨id, rfl⟩, adds⟩ := ran_acceptDropped counted
  subst same
  obtain ⟨rfl, rfl⟩ := rest
  exact ⟨⟨id, rfl⟩, rfl, adds⟩

theorem exists_ran_database (call : Call) : ∃ outcome after,
    Ran (FanoutWorld.responds validJson subscribers accepts) (Delivery.database call)
      world outcome after := by
  obtain ⟨outcome, db, ran⟩ :=
    @exists_ran_answered _ (fun _ => True) 0 trivial (call.body validJson).run world.db
  exact ⟨outcome, _, ran_database.mpr ⟨db, ran, rfl⟩⟩

theorem exists_ran_acceptDropped : ∃ value after,
    Ran (FanoutWorld.responds validJson subscribers accepts)
      (Delivery.acceptDropped topic) world value after := by
  obtain ⟨outcome, after, called⟩ := exists_ran_database (.acceptDropped topic)
  unfold Delivery.acceptDropped
  simp only [ran_bind]
  cases outcome with
  | error => exact ⟨_, after, _, after, called, rfl, rfl⟩
  | ok result => cases result <;> exact ⟨_, after, _, after, called, rfl, rfl⟩

/-- What is sent to the targets, and what comes of it. -/
theorem spec_of_ran_sendTo
    (ran :
      Ran (FanoutWorld.responds validJson subscribers accepts)
        (sendTo topic payload attributes targets) world value after) :
    let takers := targets.filter fun target => accepts target.2
    (takers = [] ∧ DropsMessage topic world after value) ∨
      (takers ≠ [] ∧ SendsMessage topic payload attributes takers world after value) := by
  intro takers
  unfold sendTo at ran
  split at ran
  · next nothing =>
    have none : takers = [] := by
      rw [List.isEmpty_iff] at nothing
      simp [takers, nothing]
    exact .inl ⟨none, dropsMessage_of_ran ran⟩
  · obtain ⟨messageId, _, drawn, named⟩ := ran_bind.mp ran
    obtain rfl := ran_ask.mp drawn
    obtain ⟨createdAt, _, read, stamped⟩ := ran_bind.mp named
    obtain rfl := ran_ask.mp read
    obtain ⟨sent, _, looped, ending⟩ := ran_bind.mp stamped
    obtain ⟨rfl, rfl⟩ := ran_fanout.mp looped
    split at ending
    · next nobody =>
      have none : takers = [] := List.length_eq_zero_iff.mp nobody
      obtain ⟨dropped, copies, adds⟩ := dropsMessage_of_ran ending
      refine .inl ⟨none, dropped, ?_, adds⟩
      rw [copies]
      change _ ++ takers.map _ = _
      rw [none, List.map_nil, List.append_nil]
    · next somebody =>
      obtain ⟨outcome, _, called, answered⟩ := ran_bind.mp ending
      obtain ⟨db, asked, rfl⟩ := ran_database.mp called
      obtain ⟨inner, counted, same⟩ := Program.ran_map.mp asked
      obtain ⟨rfl, adds⟩ := ran_bumpTopicStat counted
      subst same
      obtain ⟨rfl, rfl⟩ := answered
      refine .inr ⟨fun none => somebody (by change takers.length = 0; rw [none]; rfl), ?_⟩
      exact ⟨_, rfl, rfl, rfl, rfl, rfl, adds⟩

theorem exists_ran_sendTo : ∃ value after,
    Ran (FanoutWorld.responds validJson subscribers accepts)
      (sendTo topic payload attributes targets) world value after := by
  unfold sendTo
  split
  · exact exists_ran_acceptDropped
  · -- The identifier and the instant are open; what the loop does is not.
    have ending : ∀ (sent : Nat) (reached : FanoutWorld),
        ∃ value after, Ran (FanoutWorld.responds validJson subscribers accepts)
            (if sent = 0 then
              Delivery.acceptDropped topic
            else do
              match ← Delivery.database (.recordLiveFanout topic) with
              | .ok _ => pure (.ok (.queued "" false))
              | .error _ => pure (.error ()))
            reached value after := by
      intro sent reached
      split
      · exact exists_ran_acceptDropped
      · obtain ⟨outcome, after, called⟩ := exists_ran_database (.recordLiveFanout topic)
        cases outcome with
        | ok | error => exact ⟨_, after, ran_bind.mpr ⟨_, after, called, rfl, rfl⟩⟩
    obtain ⟨value, after, ended⟩ := ending _ _
    exact ⟨value, after,
      ran_bind.mpr ⟨"", world, ran_ask.mpr rfl,
        ran_bind.mpr ⟨(0 : Nat), world, ran_ask.mpr rfl,
          ran_bind.mpr ⟨_, _, ran_fanout.mpr ⟨rfl, rfl⟩, ended⟩⟩⟩⟩

end World

/-! ## Who gets the message -/

section Receivers

variable (subscribers : TopicSubscribers) (accepts : StreamSender → Bool) (topic : String)

def MatchingStream (session : String) (stream : StreamSender) : Prop :=
  ∃ filter entry, subscribers.liveEntry filter session = some entry ∧
    filterMatches filter topic = true ∧ entry.tx = stream

/-- A session that takes the message, on one of its streams. -/
def AcceptingSession (session : String) : Prop :=
  ∃ stream, MatchingStream subscribers topic session stream ∧ accepts stream = true

/-- The sessions that are to receive the message: in broadcast mode all that take it, in
single mode one of them; each on one of its streams. -/
structure Receivers (delivery : DeliveryMode) (receivers : List (String × StreamSender)) :
    Prop where
  once : (receivers.map Prod.fst).Nodup
  accepting :
    ∀ target ∈ receivers,
      MatchingStream subscribers topic target.1 target.2 ∧ accepts target.2 = true
  all :
    delivery = .broadcast → ∀ session, AcceptingSession subscribers accepts topic session →
        session ∈ receivers.map Prod.fst
  one : delivery = .single → receivers.length = 1

/-- A message is dropped exactly when no session takes it, and is sent once to each session
it is for otherwise. -/
def FansOut (payload : List UInt8) (attributes : String) (delivery : DeliveryMode)
    (world after : FanoutWorld) (value : Except Unit Delivery.Ingested) : Prop :=
  ((∃ session, AcceptingSession subscribers accepts topic session) →
      ∃ receivers, Receivers subscribers accepts topic delivery receivers ∧
        SendsMessage topic payload attributes receivers world after value) ∧
    ((¬ ∃ session, AcceptingSession subscribers accepts topic session) →
      DropsMessage topic world after value)

/-- It makes no difference which stream comes up first: in broadcast mode the streams of
one session, in single mode all streams take the message or none does. -/
def OrderIrrelevant (delivery : DeliveryMode) : Prop :=
  ∀ session stream other otherStream, MatchingStream subscribers topic session stream →
      MatchingStream subscribers topic other otherStream →
        (delivery = .broadcast → session = other) →
          accepts stream = true → accepts otherStream = true

variable {subscribers accepts topic} {validJson : String → Bool} {payload : List UInt8}
  {attributes : String} {delivery : DeliveryMode} {world after : FanoutWorld}
  {value : Except Unit Delivery.Ingested} {senders : List (String × StreamSender)}

theorem targetsOf_sublist : (targetsOf delivery senders).Sublist senders := by
  unfold targetsOf
  split
  · exact List.take_sublist 1 senders
  · exact List.Sublist.refl _

/-- Those that take the message are the right ones, if there are any. -/
theorem receivers_of_offers (offers : subscribers.Offers topic senders)
    (irrelevant : OrderIrrelevant subscribers accepts topic delivery)
    (some : ((targetsOf delivery senders).filter fun target => accepts target.2) ≠ []) :
    Receivers subscribers accepts topic delivery
      ((targetsOf delivery senders).filter fun target => accepts target.2) := by
  constructor
  · exact offers.nodup.sublist ((List.filter_sublist.trans targetsOf_sublist).map _)
  · intro target member
    obtain ⟨listed, taken⟩ := List.mem_filter.mp member
    exact ⟨offers.origin (targetsOf_sublist.subset listed), taken⟩
  · rintro rfl session ⟨stream, ⟨filter, entry, live, matched, rfl⟩, taken⟩
    obtain ⟨sender, offered⟩ := offers.complete live matched
    have accepted : accepts sender = true :=
      irrelevant session entry.tx session sender ⟨filter, entry, live, matched, rfl⟩
        (offers.origin offered) (fun _ => rfl) taken
    exact List.mem_map.mpr ⟨(session, sender), List.mem_filter.mpr ⟨offered, accepted⟩, rfl⟩
  · rintro rfl
    have short : ((targetsOf .single senders).filter fun target => accepts target.2).length ≤ 1 :=
      (List.length_filter_le _ _).trans (List.length_take_le 1 senders)
    have long := List.length_pos_iff.mpr some
    omega

/-- Where somebody takes the message, somebody who was sent it does. -/
theorem takers_of_accepting (offers : subscribers.Offers topic senders)
    (irrelevant : OrderIrrelevant subscribers accepts topic delivery) {session : String}
    (accepting : AcceptingSession subscribers accepts topic session) :
    ((targetsOf delivery senders).filter fun target => accepts target.2) ≠ [] := by
  obtain ⟨stream, matching, taken⟩ := accepting
  obtain ⟨filter, entry, live, matched, rfl⟩ := matching
  obtain ⟨sender, offered⟩ := offers.complete live matched
  have takes : ∀ target ∈ senders, (delivery = .broadcast → session = target.1) →
      accepts target.2 = true := by
    intro target listed same
    exact irrelevant session entry.tx target.1 target.2 ⟨filter, entry, live, matched, rfl⟩
      (offers.origin listed) same taken
  cases delivery with
  | broadcast =>
    exact List.ne_nil_of_mem
      (List.mem_filter.mpr ⟨offered, takes (session, sender) offered fun _ => rfl⟩)
  | single =>
    cases senders with
    | nil => cases offered
    | cons first =>
      have accepted := takes first (.head _) nofun
      exact List.ne_nil_of_mem (List.mem_filter.mpr ⟨.head _, accepted⟩)

theorem fansOut_of_orderIrrelevant (irrelevant : OrderIrrelevant subscribers accepts topic delivery)
    (ran :
      Ran (FanoutWorld.responds validJson subscribers accepts)
        (Delivery.fanoutEphemeral topic payload attributes delivery) world value after) :
    FansOut subscribers accepts topic payload attributes delivery world after value := by
  rw [fanoutEphemeral_eq] at ran
  obtain ⟨senders, _, offered, sent⟩ := ran_bind.mp ran
  obtain ⟨offers, rfl⟩ := ran_ask.mp offered
  rcases spec_of_ran_sendTo sent with ⟨none, drops⟩ | ⟨some, sends⟩
  · refine ⟨?_, fun _ => drops⟩
    rintro ⟨session, accepting⟩
    exact absurd none (takers_of_accepting offers irrelevant accepting)
  · have receivers := receivers_of_offers offers irrelevant some
    refine ⟨fun _ => ⟨_, receivers, sends⟩, fun nobody => ?_⟩
    obtain ⟨target, member⟩ := List.exists_mem_of_ne_nil _ some
    exact absurd ⟨target.1, target.2, receivers.accepting target member⟩ nobody

/-- Someone who takes the message can be left out by the order of the streams, where it
makes a difference. -/
theorem orderIrrelevant_of_fansOut
    (right :
      ∀ {value after},
        Ran (FanoutWorld.responds validJson subscribers accepts)
            (Delivery.fanoutEphemeral topic payload attributes delivery) world value after →
          FansOut subscribers accepts topic payload attributes delivery world after value) :
    OrderIrrelevant subscribers accepts topic delivery := by
  rintro session stream other _ matching ⟨filter, entry, live, matched, rfl⟩ same taken
  by_contra refused
  -- The stream that does not take the message comes up first.
  obtain ⟨rest, offers⟩ := TopicSubscribers.exists_offers_first live matched
  obtain ⟨value, after, sent⟩ := exists_ran_sendTo
  have ran : Ran (FanoutWorld.responds validJson subscribers accepts)
      (Delivery.fanoutEphemeral topic payload attributes delivery) world value after := by
    rw [fanoutEphemeral_eq]
    exact ran_bind.mpr ⟨_, world, ran_ask.mpr ⟨offers, rfl⟩, sent⟩
  obtain ⟨receivers, intended, _, _, _, _, queued, copies, _⟩ :=
    (right ran).1 ⟨session, stream, matching, taken⟩
  rcases spec_of_ran_sendTo sent with ⟨_, ⟨id, dropped⟩, _⟩ | ⟨some, _, _, _, _, _, sentCopies, _⟩
  · rw [queued] at dropped
    cases dropped
  · cases delivery with
    | single => exact absurd some (by simp [targetsOf, refused])
    | broadcast =>
      obtain rfl := same rfl
      have lengths : receivers.length = (rest.filter fun target => accepts target.2).length := by
        have equal := congrArg List.length (copies.symm.trans sentCopies)
        simpa [targetsOf, refused] using equal
      have distinct := offers.nodup
      rw [List.map_cons, List.nodup_cons] at distinct
      -- The session takes the message and is not among those that got it.
      have more : (session :: (rest.filter fun target => accepts target.2).map Prod.fst).length ≤
          (receivers.map Prod.fst).length := by
        refine (List.subperm_of_subset ?_ ?_).length_le
        · refine List.nodup_cons.mpr ⟨fun listed => distinct.1 ?_, ?_⟩
          · exact (List.filter_sublist.map _).subset listed
          · exact distinct.2.sublist (List.filter_sublist.map _)
        · intro name listed
          rcases List.mem_cons.mp listed with rfl | listed
          · exact intended.all rfl name ⟨stream, matching, taken⟩
          · obtain ⟨target, member, rfl⟩ := List.mem_map.mp listed
            obtain ⟨inRest, accepted⟩ := List.mem_filter.mp member
            exact intended.all rfl target.1 ⟨target.2, offers.origin (.tail _ inRest), accepted⟩
      simp only [List.length_cons, List.length_map] at more
      omega

end Receivers

/-- For every table of live streams, topic, mode and streams that accept: a fan-out ends,
and it drops the message exactly when no session takes it and sends it once to each session
it is for, in whatever order the table is walked, exactly when it makes no difference which
stream comes up first. -/
theorem fanoutEphemeral_right_iff (validJson : String → Bool) (subscribers : TopicSubscribers)
    (accepts : StreamSender → Bool) (topic : String) (payload : List UInt8) (attributes : String)
    (delivery : DeliveryMode) (world : FanoutWorld) :
    (∃ value after,
        Ran (FanoutWorld.responds validJson subscribers accepts)
          (Delivery.fanoutEphemeral topic payload attributes delivery) world value after) ∧
      ((∀ value after,
          Ran (FanoutWorld.responds validJson subscribers accepts)
              (Delivery.fanoutEphemeral topic payload attributes delivery) world value after →
            FansOut subscribers accepts topic payload attributes delivery world after value) ↔
        OrderIrrelevant subscribers accepts topic delivery) := by
  constructor
  · obtain ⟨senders, offers⟩ := @TopicSubscribers.exists_offers subscribers topic
    obtain ⟨value, after, sent⟩ := exists_ran_sendTo
    refine ⟨value, after, ?_⟩
    rw [fanoutEphemeral_eq]
    exact ran_bind.mpr ⟨senders, world, ran_ask.mpr ⟨offers, rfl⟩, sent⟩
  · constructor
    · intro right
      exact orderIrrelevant_of_fansOut (right _ _)
    · intro irrelevant value after ran
      exact fansOut_of_orderIrrelevant irrelevant ran

/-- The entry of a session that is there with the filter `t`. -/
def streamOf (session : String) (tx : StreamSender) : LiveEntry where
  info :=
    { id := session, topic := "t", peer := "", connectedAt := 0, protocol := "",
      version := "", host := "" }
  tx := tx

/-- Two sessions, the first of which has gone without its loop having noticed. -/
def oneGone : TopicSubscribers :=
  (∅ : TopicSubscribers).insert "t"
    (((∅ : Dict String LiveEntry).insert "s2" (streamOf "s2" 2)).insert "s1" (streamOf "s1" 1))

/-- In single mode a message can be dropped although a session takes it: the stream that
comes up first is the one that has gone. -/
theorem fanoutEphemeral_drops_beside_taker :
    AcceptingSession oneGone (fun stream => decide (stream = 2)) "t" "s2" ∧ ∃ after id,
        Ran (FanoutWorld.responds (fun _ => true) oneGone fun stream => decide (stream = 2))
          (Delivery.fanoutEphemeral "t" [1] "" .single)
          { db := Database.empty, outcomes := [], copies := [] } (.ok (.dropped id)) after := by
  refine ⟨⟨2, ⟨"t", streamOf "s2" 2, by decide, by decide, rfl⟩, rfl⟩, ?_⟩
  have gone : oneGone.liveEntry "t" "s1" = some (streamOf "s1" 1) := by decide
  obtain ⟨rest, offers⟩ :=
    TopicSubscribers.exists_offers_first gone (by decide : filterMatches "t" "t" = true)
  obtain ⟨value, after, sent⟩ := exists_ran_sendTo
  rcases spec_of_ran_sendTo sent with ⟨_, ⟨id, rfl⟩, _⟩ | ⟨some, _⟩
  · refine ⟨after, id, ?_⟩
    rw [fanoutEphemeral_eq]
    exact ran_bind.mpr ⟨_, _, ran_ask.mpr ⟨offers, rfl⟩, sent⟩
  · exact absurd some (by simp [targetsOf, streamOf])

end CanglingBroker
