import CanglingBroker.Mqtt.Session

/-!
# The packet identifiers of a session

The identifiers of QoS 1 publishes are drawn in turn from 1 to 65535, leaving out those
that wait for a PUBACK.  Nothing keeps a session from sending on when all are taken: the
search then gives up and an identifier is used a second time.
-/

namespace CanglingBroker
namespace Mqtt

open Foundation

/-! ## The search for an identifier -/

section Search

variable {used : Dict UInt16 (String × String)} (next : UInt16)

theorem toNat_followingId : (followingId next).toNat = next.toNat % 65535 + 1 := by
  have bound := next.toNat_lt
  unfold followingId
  split
  · next last =>
    subst last
    rfl
  · next other =>
    have below : next.toNat ≠ 65535 := fun same => other (UInt16.toNat.inj same)
    rw [UInt16.toNat_add]
    have one : (1 : UInt16).toNat = 1 := rfl
    rw [one]
    omega

theorem toNat_iterate_followingId (rounds : Nat) :
    (followingId^[rounds + 1] next).toNat = (next.toNat + rounds) % 65535 + 1 := by
  induction rounds with
  | zero => exact toNat_followingId next
  | succ _ ih =>
    rw [Function.iterate_succ_apply', toNat_followingId, ih]
    omega

theorem exists_iterate_followingId {target : UInt16} (nonzero : target ≠ 0) :
    ∃ round < 65535, followingId^[round + 1] next = target := by
  have bound := next.toNat_lt
  have targetBound := target.toNat_lt
  have positive : target.toNat ≠ 0 := fun same => nonzero (UInt16.toNat.inj same)
  refine ⟨(target.toNat + 131069 - next.toNat) % 65535, Nat.mod_lt _ (by decide), ?_⟩
  apply UInt16.toNat.inj
  rw [toNat_iterate_followingId]
  omega

theorem used_of_searchPacketId {rounds : Nat} {next : UInt16}
    (taken : (used.lookup (searchPacketId used rounds next)).isSome) :
    ∀ round < rounds, (used.lookup (followingId^[round + 1] next)).isSome := by
  induction rounds generalizing next with
  | zero => nofun
  | succ _ ih =>
    rw [searchPacketId] at taken
    by_cases seen : (used.lookup (followingId next)).isSome
    · rw [if_pos seen] at taken
      intro round below
      cases round with
      | zero => exact seen
      | succ round => exact ih taken round (Nat.lt_of_succ_lt_succ below)
    · rw [if_neg seen] at taken
      exact absurd taken seen

theorem exists_followingId_searchPacketId (rounds : Nat) (next : UInt16) :
    ∃ previous, searchPacketId used (rounds + 1) next = followingId previous := by
  induction rounds generalizing next with
  | zero =>
    refine ⟨next, ?_⟩
    rw [searchPacketId]
    split <;> rfl
  | succ _ ih =>
    rw [searchPacketId]
    split
    · exact ih (followingId next)
    · exact ⟨next, rfl⟩

theorem allocPacketId_ne_zero : allocPacketId next used ≠ 0 := by
  obtain ⟨previous, found⟩ := @exists_followingId_searchPacketId used 65534 next
  unfold allocPacketId
  rw [found]
  intro zero
  have value := toNat_followingId previous
  rw [zero] at value
  have none : (0 : UInt16).toNat = 0 := rfl
  omega

def usedNumbers (used : Dict UInt16 (String × String)) : Finset Nat :=
  (used.keys.map UInt16.toNat).toFinset

theorem mem_usedNumbers {id : UInt16} : id.toNat ∈ usedNumbers used ↔ (used.lookup id).isSome := by
  rw [usedNumbers, List.mem_toFinset, List.mem_map, AList.lookup_isSome]
  constructor
  · rintro ⟨other, member, same⟩
    exact UInt16.toNat.inj same ▸ member
  · intro member
    exact ⟨id, member, rfl⟩

theorem card_usedNumbers : (usedNumbers used).card = Dict.size used := by
  have distinct : (used.keys.map UInt16.toNat).Nodup :=
    List.Nodup.map (fun _ _ same => UInt16.toNat.inj same) used.keys_nodup
  rw [usedNumbers, List.toFinset_card_of_nodup distinct, List.length_map, Dict.size,
    AList.keys, List.keys, List.length_map]

theorem usedNumbers_subset (nonzero : ∀ id, (used.lookup id).isSome → id ≠ 0) :
    usedNumbers used ⊆ Finset.Icc 1 65535 := by
  intro number member
  rw [usedNumbers, List.mem_toFinset, List.mem_map] at member
  obtain ⟨id, known, rfl⟩ := member
  have bound := id.toNat_lt
  have positive : id.toNat ≠ 0 := by
    intro same
    exact nonzero id (AList.lookup_isSome.mpr known) (UInt16.toNat.inj same)
  rw [Finset.mem_Icc]
  omega

/-- The search finds a free identifier exactly when there is one. -/
theorem lookup_allocPacketId_eq_none_iff (nonzero : ∀ id, (used.lookup id).isSome → id ≠ 0)
    (next : UInt16) :
    used.lookup (allocPacketId next used) = none ↔ Dict.size used < 65535 := by
  have all : (Finset.Icc 1 65535).card = 65535 := by simp
  rw [← card_usedNumbers, ← Option.not_isSome_iff_eq_none]
  constructor
  · intro free
    by_contra full
    -- With so many identifiers in use they are all in use, also the one found.
    have everything : usedNumbers used = Finset.Icc 1 65535 :=
      Finset.eq_of_subset_of_card_le (usedNumbers_subset nonzero) (by omega)
    refine free (mem_usedNumbers.mp ?_)
    have bound := (allocPacketId next used).toNat_lt
    have positive : (allocPacketId next used).toNat ≠ 0 := fun same =>
      allocPacketId_ne_zero next (UInt16.toNat.inj same)
    rw [everything, Finset.mem_Icc]
    omega
  · intro room taken
    have seen := used_of_searchPacketId taken
    have everything : Finset.Icc 1 65535 ⊆ usedNumbers used := by
      intro number member
      rw [Finset.mem_Icc] at member
      have value : (UInt16.ofNat number).toNat = number :=
        UInt16.toNat_ofNat_of_lt' (Nat.lt_succ_of_le member.2)
      have target : UInt16.ofNat number ≠ 0 := by
        intro zero
        rw [zero] at value
        have none : (0 : UInt16).toNat = 0 := rfl
        omega
      obtain ⟨round, below, reached⟩ := exists_iterate_followingId next target
      have known := seen round below
      rw [reached] at known
      rw [← value]
      exact mem_usedNumbers.mpr known
    have least := Finset.card_le_card everything
    omega

end Search

/-! ## What waits for a PUBACK -/

/-- The packet identifier of a publish that is to be written. -/
def WriteJob.packetId? : WriteJob → Option UInt16
  | .deliver (.publish publish) _ => publish.packetId
  | _ => none

/-- The packet identifier of a publish that was given to the writer. -/
def SessionEffect.packetId? : SessionEffect → Option UInt16
  | .queued job => job.packetId?
  | _ => none

/-- A publish with its identifier: the message it carries and the lease. -/
structure Sent where
  packetId : UInt16
  messageId : String
  lease : String
  deriving DecidableEq, Repr

/-- What is outstanding after a turn: the QoS 1 publishes that were given to the writer
and whose identifier the client has not acknowledged since. -/
def outstandingAfter (outstanding : List Sent) :
    SessionInput → List SessionEffect → List Sent
  | .outgoing message, effects =>
    outstanding ++ (effects.filterMap SessionEffect.packetId?).map fun packetId =>
        ⟨packetId, message.messageId, message.lease⟩
  | .incoming (.pubAck packetId), _ =>
    outstanding.filter fun sent => decide (sent.packetId ≠ packetId)
  | .incoming _, _ => outstanding

/-- A session, with what is outstanding by what was sent and received. -/
structure Session where
  state : SessionState
  outstanding : List Sent
  ended : Bool

def Session.fresh : Session where
  state := .fresh
  outstanding := []
  ended := false

/-- One turn; a session ends by a DISCONNECT or an error. -/
def Session.step (session : Session) (turn : SessionInput × Surroundings) :
    Option Session :=
  if session.ended then
    none
  else
    match sessionTurn turn.2 session.state turn.1 with
    | .error _ => some { session with ended := true }
    | .ok (state, effects, ended) =>
      some
        { state := state
          outstanding := outstandingAfter session.outstanding turn.1 effects
          ended := ended }

/-! ## What one turn does -/

section Turn

variable {around : Surroundings} {state : SessionState}

theorem subscribeTopic_inflightPub (noted : Bool) (filter : SubscribeFilter) :
    (subscribeTopic noted state filter).1.inflightPub = state.inflightPub := by
  unfold subscribeTopic
  dsimp only
  split
  · rfl
  · split <;> rfl

theorem subscribeTopics_inflightPub (position : Nat) (filters : List SubscribeFilter) :
    (subscribeTopics around position state filters).1.inflightPub = state.inflightPub := by
  induction filters generalizing position state with
  | nil => rfl
  | cons filter _ ih =>
    rw [subscribeTopics]
    exact (ih _).trans (subscribeTopic_inflightPub _ filter)

theorem unsubscribeTopics_inflightPub (topics : List String) :
    (unsubscribeTopics state topics).1.inflightPub = state.inflightPub := by
  induction topics generalizing state with
  | nil => rfl
  | cons _ _ ih =>
    rw [unsubscribeTopics]
    exact ih

/-- What a turn does to the publishes that wait for a PUBACK. -/
inductive Turned (input : SessionInput) (before after : Session) : Prop
  | nothing (inflight : after.state.inflightPub = before.state.inflightPub)
      (outstanding : after.outstanding = before.outstanding)
  | sent (message : SatwayMessage) (taken : input = .outgoing message)
      (granted : grantedQos before.state.qosByTopic message.topic ≠ 0) (packetId : UInt16)
      (drawn : packetId = allocPacketId before.state.nextPacketId before.state.inflightPub)
      (inflight :
        after.state.inflightPub =
          before.state.inflightPub.insert packetId (message.messageId, message.lease))
      (outstanding :
        after.outstanding = before.outstanding ++ [⟨packetId, message.messageId, message.lease⟩])
  | acknowledged (packetId : UInt16)
      (inflight : after.state.inflightPub = before.state.inflightPub.erase packetId)
      (outstanding :
        after.outstanding = before.outstanding.filter fun sent => decide (sent.packetId ≠ packetId))

theorem ok_of_queueJob {Result : Type} {job : WriteJob} {result : Result}
    {next : List SessionEffect → Except String Result}
    (done : queueJob around job >>= next = .ok result) : next [.queued job] = .ok result := by
  unfold queueJob at done
  split at done
  · exact done
  · cases done

variable {effects : List SessionEffect} {after : SessionState} {ended : Bool} {session : Session}

theorem handlePacket_inflightPub {packet : Packet} (other : ∀ packetId, packet ≠ .pubAck packetId)
    (handled : handlePacket around state packet = .ok (after, effects, ended)) :
    after.inflightPub = state.inflightPub := by
  cases packet with
  | pubAck packetId => exact absurd rfl (other packetId)
  | publish =>
    simp only [handlePacket] at handled
    split at handled <;> cases handled <;> rfl
  | pubRel | pingReq =>
    cases ok_of_queueJob handled
    rfl
  | subscribe sub =>
    cases ok_of_queueJob handled
    exact subscribeTopics_inflightPub 0 sub.filters
  | unsubscribe unsub =>
    cases ok_of_queueJob handled
    exact unsubscribeTopics_inflightPub unsub.filters
  | connect => cases handled
  | disconnect | pubRec | pubComp | connAck | subAck | unsubAck | pingResp =>
    cases handled
    rfl

theorem turned_of_outgoing {message : SatwayMessage}
    (turned : sessionTurn around session.state (.outgoing message) = .ok (after, effects, ended)) :
    Turned (.outgoing message) session
      { state := after
        outstanding := outstandingAfter session.outstanding (.outgoing message) effects
        ended := ended } := by
  have queued : (after, effects, ended) = ((outgoingJob session.state message).1,
      [.queued (outgoingJob session.state message).2], false) := by
    simp only [sessionTurn, queueOutgoing, bind_assoc] at turned
    have done := ok_of_queueJob turned
    cases done
    rfl
  cases queued
  unfold outgoingJob
  split
  · exact .nothing rfl (List.append_nil _)
  · next granted => exact .sent message rfl granted _ rfl rfl rfl

theorem turned_of_incoming {packet : Packet}
    (turned : handlePacket around session.state packet = .ok (after, effects, ended)) :
    Turned (.incoming packet) session
      { state := after
        outstanding := outstandingAfter session.outstanding (.incoming packet) effects
        ended := ended } := by
  by_cases other : ∀ packetId, packet ≠ .pubAck packetId
  · refine .nothing (handlePacket_inflightPub other turned) ?_
    cases packet with
    | pubAck packetId => exact absurd rfl (other packetId)
    | _ => rfl
  · push Not at other
    obtain ⟨packetId, rfl⟩ := other
    refine .acknowledged packetId ?_ rfl
    simp only [handlePacket] at turned
    split at turned
    · cases turned
      rfl
    · next absent =>
      cases turned
      exact (Dict.erase_of_lookup_eq_none absent).symm

theorem turned_of_step {after : Session} {turn : SessionInput × Surroundings}
    (stepped : session.step turn = some after) : Turned turn.1 session after := by
  unfold Session.step at stepped
  split at stepped
  · cases stepped
  · split at stepped
    · cases stepped
      exact .nothing rfl rfl
    · next turned =>
      cases stepped
      obtain ⟨input, around⟩ := turn
      cases input with
      | outgoing => exact turned_of_outgoing turned
      | incoming => exact turned_of_incoming turned

end Turn

/-! ## Whole runs -/

namespace Session

def HasRoom (session : Session) : Prop :=
  Dict.size session.state.inflightPub < 65535

/-- The identifier is none that is outstanding, and noting it overwrites nothing. -/
def IsNew (session : Session) (packetId : UInt16) : Prop :=
  packetId ≠ 0 ∧ (∀ sent ∈ session.outstanding, sent.packetId ≠ packetId) ∧
    session.state.inflightPub.lookup packetId = none

def DrawsWithRoom (session : Session) (turn : SessionInput × Surroundings) : Prop :=
  ∀ message packetId, turn.1 = .outgoing message →
    (outgoingJob session.state message).2.packetId? = some packetId → session.HasRoom

/-- Outstanding publishes have identifiers of their own, and a PUBACK completes the
message that was sent under its identifier and nothing else. -/
def CompletesWhatWasSent (session : Session) : Prop :=
  (session.outstanding.map Sent.packetId).Nodup ∧ ∀ around packetId,
      handlePacket around session.state (.pubAck packetId) = .ok
          ({ session.state with
              inflightPub := session.state.inflightPub.erase packetId },
            (session.outstanding.filter fun sent => sent.packetId = packetId).map
              fun sent => .completed sent.messageId sent.lease,
            false)

/-- The table of a session has the identifiers that are outstanding. -/
structure Tracks (session : Session) : Prop where
  nonzero : ∀ packetId, (session.state.inflightPub.lookup packetId).isSome → packetId ≠ 0
  known :
    ∀ packetId, (session.state.inflightPub.lookup packetId).isSome ↔
        ∃ sent ∈ session.outstanding, sent.packetId = packetId

/-- The table of a session is what is outstanding. -/
structure Agrees (session : Session) : Prop where
  distinct : (session.outstanding.map Sent.packetId).Nodup
  entry :
    ∀ packetId messageId lease,
      session.state.inflightPub.lookup packetId = some (messageId, lease) ↔
        ⟨packetId, messageId, lease⟩ ∈ session.outstanding

variable {session after : Session} {turn : SessionInput × Surroundings}

theorem tracks_fresh : fresh.Tracks := by
  constructor
  · nofun
  · intro packetId
    constructor
    · nofun
    · rintro ⟨sent, member, _⟩
      cases member

theorem Tracks.step (tracks : session.Tracks) (stepped : session.step turn = some after) :
    after.Tracks := by
  cases turned_of_step stepped with
  | nothing inflight outstanding =>
    constructor
    · rw [inflight]
      exact tracks.nonzero
    · rw [inflight, outstanding]
      exact tracks.known
  | sent _ _ _ _ drawn inflight outstanding =>
    constructor
    · intro other
      rw [inflight, Dict.lookup_insert]
      split
      · next same =>
        intro _
        rw [same, drawn]
        exact allocPacketId_ne_zero _
      · exact tracks.nonzero other
    · intro other
      rw [inflight, outstanding, Dict.lookup_insert]
      split
      · next same => simp [same]
      · next different =>
        rw [tracks.known other]
        simp [Ne.symm different]
  | acknowledged _ inflight outstanding =>
    constructor
    · intro other
      rw [inflight, Dict.lookup_erase]
      split
      · nofun
      · exact tracks.nonzero other
    · intro other
      rw [inflight, outstanding, Dict.lookup_erase]
      split
      · next same => simp [same]
      · next different =>
        rw [tracks.known other]
        constructor
        · rintro ⟨sent, member, rfl⟩
          exact ⟨sent, List.mem_filter.mpr ⟨member, decide_eq_true different⟩, rfl⟩
        · rintro ⟨sent, member, rfl⟩
          exact ⟨sent, (List.mem_filter.mp member).1, rfl⟩

theorem tracks_of_run {turns : List (SessionInput × Surroundings)}
    (ran : run Session.step fresh turns = some session) : session.Tracks :=
  run_invariant (fun tracks stepped => tracks.step stepped) tracks_fresh ran

theorem packetId_outgoingJob {state : SessionState} {message : SatwayMessage} {packetId : UInt16} :
    (outgoingJob state message).2.packetId? = some packetId ↔
      grantedQos state.qosByTopic message.topic ≠ 0 ∧
        packetId = allocPacketId state.nextPacketId state.inflightPub := by
  unfold outgoingJob
  split
  · next granted => simp [WriteJob.packetId?, granted]
  · next granted => simp [WriteJob.packetId?, granted, eq_comm]

theorem Tracks.isNew_iff (tracks : session.Tracks) {message : SatwayMessage} {packetId : UInt16}
    (drawn : (outgoingJob session.state message).2.packetId? = some packetId) :
    session.IsNew packetId ↔ session.HasRoom := by
  obtain ⟨_, rfl⟩ := packetId_outgoingJob.mp drawn
  have free := lookup_allocPacketId_eq_none_iff tracks.nonzero session.state.nextPacketId
  constructor
  · rintro ⟨_, _, unused⟩
    exact free.mp unused
  · intro room
    have unused := free.mpr room
    refine ⟨allocPacketId_ne_zero _, fun sent member same => ?_, unused⟩
    have known := (tracks.known _).mpr ⟨sent, member, same⟩
    rw [unused] at known
    cases known

theorem agrees_fresh : fresh.Agrees := by
  constructor
  · exact List.nodup_nil
  · intro packetId messageId lease
    constructor
    · nofun
    · nofun

/-- With a free identifier to draw, the table stays what is outstanding. -/
theorem Agrees.step (agrees : session.Agrees) (tracks : session.Tracks)
    (room : session.DrawsWithRoom turn) (stepped : session.step turn = some after) :
    after.Agrees := by
  cases turned_of_step stepped with
  | nothing inflight outstanding =>
    constructor
    · rw [outstanding]
      exact agrees.distinct
    · rw [inflight, outstanding]
      exact agrees.entry
  | sent message taken granted packetId drawn inflight outstanding =>
    have job := packetId_outgoingJob.mpr ⟨granted, drawn⟩
    obtain ⟨_, unsent, unused⟩ := (tracks.isNew_iff job).mpr (room message packetId taken job)
    constructor
    · rw [outstanding, List.map_append, List.nodup_append]
      refine ⟨agrees.distinct, List.nodup_singleton _, ?_⟩
      intro earlier member last single same
      obtain ⟨sent, known, rfl⟩ := List.mem_map.mp member
      rw [List.map_singleton, List.mem_singleton] at single
      exact unsent sent known (same.trans single)
    · intro other messageId lease
      rw [inflight, outstanding, Dict.lookup_insert, List.mem_append, List.mem_singleton]
      split
      · next same =>
        subst same
        have absent : (⟨other, messageId, lease⟩ : Sent) ∉ session.outstanding :=
          fun known => unsent _ known rfl
        simp [absent, eq_comm]
      · next different =>
        rw [agrees.entry other messageId lease]
        simp [different]
  | acknowledged _ inflight outstanding =>
    constructor
    · rw [outstanding]
      exact agrees.distinct.sublist (List.filter_sublist.map _)
    · intro other messageId lease
      rw [inflight, outstanding, Dict.lookup_erase, List.mem_filter]
      split
      · next same => simp [same]
      · next different =>
        rw [agrees.entry other messageId lease]
        simp [different]

theorem filter_packetId_eq {outstanding : List Sent} {sent : Sent}
    (distinct : (outstanding.map Sent.packetId).Nodup) (member : sent ∈ outstanding) :
    (outstanding.filter fun other => other.packetId = sent.packetId) = [sent] := by
  induction outstanding with
  | nil => cases member
  | cons head tail ih =>
    rw [List.map_cons, List.nodup_cons] at distinct
    obtain ⟨isFirst, distinct⟩ := distinct
    rcases List.mem_cons.mp member with rfl | later
    · have none : (tail.filter fun other => other.packetId = sent.packetId) = [] := by
        refine List.filter_eq_nil_iff.mpr fun other known same => ?_
        rw [decide_eq_true_eq] at same
        exact isFirst (List.mem_map.mpr ⟨other, known, same⟩)
      rw [List.filter_cons_of_pos (by simp), none]
    · have different : head.packetId ≠ sent.packetId := fun same =>
        isFirst (List.mem_map.mpr ⟨sent, later, same.symm⟩)
      rw [List.filter_cons_of_neg (by simpa using different)]
      exact ih distinct later

theorem Agrees.completesWhatWasSent (agrees : session.Agrees) : session.CompletesWhatWasSent := by
  refine ⟨agrees.distinct, fun around packetId => ?_⟩
  simp only [handlePacket]
  split
  · next messageId lease found =>
    have member := (agrees.entry packetId messageId lease).mp found
    rw [filter_packetId_eq agrees.distinct member]
    rfl
  · next absent =>
    have none : (session.outstanding.filter fun sent => sent.packetId = packetId) = [] := by
      refine List.filter_eq_nil_iff.mpr fun sent member same => ?_
      rw [decide_eq_true_eq] at same
      have found := (agrees.entry sent.packetId sent.messageId sent.lease).mpr member
      rw [same, absent] at found
      cases found
    rw [none, Dict.erase_of_lookup_eq_none absent]
    rfl

end Session

/-- In every run of a session, whatever messages go out and whatever packets come in: the
identifier drawn for a publish is not 0 and none that is outstanding exactly when one of
the 65535 is free; and if one was free whenever one was drawn, a PUBACK completes just the
message that was sent under its identifier. -/
theorem packetIds_distinct_iff_hasRoom (turns : List (SessionInput × Surroundings))
    (session : Session) (ran : run Session.step Session.fresh turns = some session) :
    (∀ message packetId,
        (outgoingJob session.state message).2.packetId? = some packetId →
          (session.IsNew packetId ↔ session.HasRoom)) ∧
      (Along Session.step Session.DrawsWithRoom Session.fresh turns →
        session.CompletesWhatWasSent) := by
  constructor
  · intro message packetId drawn
    exact (Session.tracks_of_run ran).isNew_iff drawn
  · intro roomy
    have keeps : ∀ {current reached : Session} {turn : SessionInput × Surroundings},
        current.Tracks ∧ current.Agrees → current.DrawsWithRoom turn →
          current.step turn = some reached → reached.Tracks ∧ reached.Agrees :=
      fun holds room stepped => ⟨holds.1.step stepped, holds.2.step holds.1 room stepped⟩
    have both :=
      run_invariant_along keeps ⟨Session.tracks_fresh, Session.agrees_fresh⟩ roomy ran
    exact both.2.completesWhatWasSent

def subscribes : SessionInput × Surroundings :=
  (.incoming (.subscribe { packetId := 1, filters := [⟨"t", 1⟩] }), {})

/-- A message of the topic, by its number. -/
def numbered (number : Nat) : SatwayMessage where
  messageId := toString number
  topic := "t"
  payload := []
  attributes := ""
  createdAt := 0
  lease := "lease"

def sends (message : SatwayMessage) : SessionInput × Surroundings :=
  (.outgoing message, {})

/-- The client subscribes and never acknowledges anything. -/
def floods (count : Nat) : List (SessionInput × Surroundings) :=
  subscribes :: (List.range count).map fun number => sends (numbered number)

def acknowledges (packetId : UInt16) : SessionInput × Surroundings :=
  (.incoming (.pubAck packetId), {})

def Session.roomy (session : Session) (turn : SessionInput × Surroundings) : Bool :=
  match turn.1 with
  | .outgoing _ => decide (Dict.size session.state.inflightPub < 65535)
  | .incoming _ => true

theorem packetIds_distinct_iff_hasRoom_floods : ∃ session,
    run Session.step Session.fresh (floods 2 ++ [acknowledges 1]) = some session ∧
      session.outstanding = [⟨2, "1", "lease"⟩] ∧
      session.CompletesWhatWasSent ∧
      ∀ message packetId, (outgoingJob session.state message).2.packetId? = some packetId →
          (session.IsNew packetId ↔ session.HasRoom) := by
  have sound : ∀ current turn, Session.roomy current turn = true → current.DrawsWithRoom turn := by
    intro current turn checked message packetId taken _
    rw [Session.roomy, taken, decide_eq_true_eq] at checked
    exact checked
  have roomy : Along Session.step Session.DrawsWithRoom Session.fresh
      (floods 2 ++ [acknowledges 1]) :=
    along_of_check sound (by decide +kernel)
  have spec := fun session =>
    packetIds_distinct_iff_hasRoom (floods 2 ++ [acknowledges 1]) session
  refine (exists_some_of_check ?_).imp fun session reached =>
    ⟨reached.1, reached.2, (spec session reached.1).2 roomy, (spec session reached.1).1⟩
  decide +kernel

theorem Session.step_outgoing {session : Session} (message : SatwayMessage)
    (running : session.ended = false)
    (granted : grantedQos session.state.qosByTopic message.topic ≠ 0) :
    ∃ after, session.step (sends message) = some after ∧ after.ended = false ∧
        after.state.qosByTopic = session.state.qosByTopic ∧
        after.state.inflightPub = session.state.inflightPub.insert
            (allocPacketId session.state.nextPacketId session.state.inflightPub)
            (message.messageId, message.lease) := by
  have turned : sessionTurn {} session.state (.outgoing message) = .ok
      ((outgoingJob session.state message).1,
        [.queued (outgoingJob session.state message).2], false) :=
    rfl
  have unended : ¬ session.ended = true := by
    rw [running]
    nofun
  refine
    ⟨{ state := (outgoingJob session.state message).1
       outstanding :=
        outstandingAfter session.outstanding (.outgoing message)
          [.queued (outgoingJob session.state message).2]
       ended := false }, ?_, rfl, ?_, ?_⟩
  · simp only [Session.step, if_neg unended, sends, turned]
  · unfold outgoingJob
    rw [if_neg granted]
  · unfold outgoingJob
    rw [if_neg granted]

/-- As long as there are identifiers, each message that goes out takes one more. -/
theorem size_of_floods (count : Nat) (enough : count ≤ 65535) : ∃ session,
    run Session.step Session.fresh (floods count) = some session ∧ session.ended = false ∧
      grantedQos session.state.qosByTopic "t" ≠ 0 ∧
      Dict.size session.state.inflightPub = count := by
  induction count with
  | zero => exact exists_some_of_check (by decide +kernel)
  | succ count ih =>
    obtain ⟨session, ran, running, granted, size⟩ := ih (by omega)
    obtain ⟨after, stepped, still, qos, inflight⟩ :=
      Session.step_outgoing (numbered count) running granted
    have more : floods (count + 1) = floods count ++ [sends (numbered count)] := by
      simp [floods, List.range_succ]
    have unused :=
      (lookup_allocPacketId_eq_none_iff (Session.tracks_of_run ran).nonzero
          session.state.nextPacketId).mpr (by omega)
    refine ⟨after, ?_, still, qos ▸ granted, ?_⟩
    · rw [more]
      exact run_append_eq_some.mpr ⟨session, ran, run_cons_eq_some.mpr ⟨after, stepped, rfl⟩⟩
    · rw [inflight, Dict.size_insert, Dict.erase_of_lookup_eq_none unused, size]

/-- A client that acknowledges none of 65535 messages is sent the next one under an
identifier that is outstanding, and the entry of that identifier is overwritten. -/
theorem packetId_drawn_while_outstanding : ∃ session packetId sent,
    run Session.step Session.fresh (floods 65535) = some session ∧
      (outgoingJob session.state (numbered 65535)).2.packetId? = some packetId ∧
      sent ∈ session.outstanding ∧ sent.packetId = packetId ∧
      session.state.inflightPub.lookup packetId ≠ none := by
  obtain ⟨session, ran, _, granted, size⟩ := size_of_floods 65535 (Nat.le_refl _)
  have tracks := Session.tracks_of_run ran
  have full : ¬ Dict.size session.state.inflightPub < 65535 := by omega
  have taken :=
    (lookup_allocPacketId_eq_none_iff tracks.nonzero session.state.nextPacketId).not.mpr full
  have known := (tracks.known _).mp (Option.isSome_iff_ne_none.mpr taken)
  obtain ⟨sent, member, same⟩ := known
  exact
    ⟨session, _, sent, ran, Session.packetId_outgoingJob.mpr ⟨granted, rfl⟩, member, same, taken⟩

end Mqtt
end CanglingBroker
