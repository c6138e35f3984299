import CanglingBroker.Mqtt.PacketIds

/-!
# SUBSCRIBE and UNSUBSCRIBE

Both packets name a subscription by a filter.  `subscribe_topic` files it under the
trimmed filter, the handler of UNSUBSCRIBE looks for the filter as it came.  A session is
followed with everything it asked for; `Followed` says that each loop it started is still
filed under its topic or was cancelled.
-/

namespace CanglingBroker

theorem trim_trim (text : List Char) : trim (trim text) = trim text := by
  have front : (trim text).dropWhile isWhiteSpace = trim text := by
    have kept : trim text <+: text.dropWhile isWhiteSpace := List.rdropWhile_prefix _ _
    refine List.dropWhile_eq_self_iff.mpr fun nonempty => ?_
    rw [kept.getElem nonempty]
    exact List.dropWhile_get_zero_not _ _ (nonempty.trans_le kept.length_le)
  calc
    trim (trim text) = ((trim text).dropWhile isWhiteSpace).rdropWhile isWhiteSpace := rfl
    _ = (trim text).rdropWhile isWhiteSpace := by rw [front]
    _ = trim text := List.rdropWhile_idempotent _ _

namespace Mqtt

open Foundation
open Delivery (trimmed)

theorem trimmed_trimmed (filter : String) : trimmed (trimmed filter) = trimmed filter := by
  rw [trimmed, trimmed, String.toList_ofList, trim_trim]

/-- A session with what it has asked of its surroundings so far. -/
structure Recorded where
  state : SessionState
  asked : List SessionEffect

/-- One turn; a session whose turn fails is over, and its end cancels every loop. -/
def Recorded.step (session : Recorded) (turn : SessionInput × Surroundings) : Option Recorded :=
  match sessionTurn turn.2 session.state turn.1 with
  | .ok (state, effects, _) => some ⟨state, session.asked ++ effects⟩
  | .error _ => none

/-- The SUBACK that was sent last grants the filter. -/
def Granted (filter : String) (sub : Subscribe) (asked : List SessionEffect) : Prop :=
  ∃ codes item code,
    asked.getLast? = some (.queued (.packet (.subAck ⟨sub.packetId, codes⟩))) ∧
      (item, code) ∈ sub.filters.zip codes ∧ item.topic = filter ∧ (code = 0 ∨ code = 1)

/-- What a SUBSCRIBE made for a granted filter is gone after an UNSUBSCRIBE of the same
text, whatever the session did in between, and an UNSUBSCRIBE of that text alone leaves
every other subscription. -/
def Undoes (filter : String) : Prop :=
  (∀ state sub unsub around later between subscribed final,
    Recorded.step ⟨state, []⟩ (.incoming (.subscribe sub), around) = some subscribed →
    Granted filter sub subscribed.asked → filter ∈ unsub.filters →
    run Recorded.step subscribed (between ++ [(.incoming (.unsubscribe unsub), later)]) =
        some final →
    final.state.subscriptions.lookup (trimmed filter) = none ∧
      final.state.qosByTopic.lookup (trimmed filter) = none ∧
      (∃ token, .subscribed (trimmed filter) token ∈ subscribed.asked) ∧
      ∀ token, .subscribed (trimmed filter) token ∈ subscribed.asked →
        .cancelled token ∈ final.asked) ∧
  ∀ session packetId around final other,
    Recorded.step session (.incoming (.unsubscribe ⟨packetId, [filter]⟩), around) = some final →
    trimmed other ≠ trimmed filter →
    final.state.subscriptions.lookup (trimmed other) =
        session.state.subscriptions.lookup (trimmed other) ∧
      final.state.qosByTopic.lookup (trimmed other) =
        session.state.qosByTopic.lookup (trimmed other)

/-! ## Loops and their tokens -/

/-- Every loop that was started is filed under its topic or was cancelled. -/
def Followed (asked : List SessionEffect) (subscriptions : Dict String Nat) : Prop :=
  ∀ topic token, .subscribed topic token ∈ asked →
    subscriptions.lookup topic = some token ∨ .cancelled token ∈ asked

section Followed

variable {asked effects : List SessionEffect} {subscriptions : Dict String Nat}

theorem Followed.silent (followed : Followed asked subscriptions)
    (silent : ∀ topic token, .subscribed topic token ∉ effects) :
    Followed (asked ++ effects) subscriptions := by
  intro topic token member
  have filed := followed topic token
  grind

theorem Followed.ended {state : SessionState} (followed : Followed asked state.subscriptions)
    (topic : String) :
    Followed (asked ++ endSubscription state topic) (state.subscriptions.erase topic) := by
  intro other token member
  have filed := followed other token
  simp only [endSubscription, List.mem_append, List.mem_map, Option.mem_toList] at member ⊢
  grind [Dict.lookup_erase]

theorem Followed.made (followed : Followed asked subscriptions) {topic : String} {token : Nat}
    (free : subscriptions.lookup topic = none) :
    Followed (asked ++ [.subscribed topic token]) (subscriptions.insert topic token) := by
  intro other number member
  have filed := followed other number
  grind [Dict.lookup_insert]

variable {state : SessionState}

section

variable (followed : Followed asked state.subscriptions) {around : Surroundings}

include followed

theorem Followed.subscribeTopic (noted : Bool)
    (filter : SubscribeFilter) :
    Followed (asked ++ (subscribeTopic noted state filter).2.2)
      (subscribeTopic noted state filter).1.subscriptions := by
  unfold Mqtt.subscribeTopic
  dsimp only
  split
  · rwa [List.append_nil]
  · split
    · rwa [List.append_nil]
    · rw [← List.append_assoc]
      exact (followed.ended _).made (AList.lookup_erase _ _)

theorem Followed.subscribeTopics {filters : List SubscribeFilter} {position : Nat} :
    Followed (asked ++ (subscribeTopics around position state filters).2.2)
      (subscribeTopics around position state filters).1.subscriptions := by
  induction filters generalizing asked state position with
  | nil => rwa [Mqtt.subscribeTopics, List.append_nil]
  | cons filter _ ih =>
    rw [Mqtt.subscribeTopics]
    dsimp only
    rw [← List.append_assoc]
    exact ih (followed.subscribeTopic _ filter)

theorem Followed.unsubscribeTopics {topics : List String} :
    Followed (asked ++ (unsubscribeTopics state topics).2)
      (unsubscribeTopics state topics).1.subscriptions := by
  induction topics generalizing asked state with
  | nil => rwa [Mqtt.unsubscribeTopics, List.append_nil]
  | cons topic _ ih =>
    rw [Mqtt.unsubscribeTopics]
    dsimp only
    rw [← List.append_assoc]
    exact ih (followed.ended topic)

theorem Followed.handlePacket {after : SessionState} {ended : Bool} {packet : Packet}
    (handled : handlePacket around state packet = .ok (after, effects, ended)) :
    Followed (asked ++ effects) after.subscriptions := by
  cases packet with
  | publish | pubAck =>
    simp only [Mqtt.handlePacket] at handled
    split at handled <;> cases handled <;> exact followed.silent (by simp)
  | subscribe =>
    cases ok_of_queueJob handled
    rw [← List.append_assoc]
    exact followed.subscribeTopics.silent (by simp)
  | unsubscribe =>
    cases ok_of_queueJob handled
    rw [← List.append_assoc]
    exact followed.unsubscribeTopics.silent (by simp)
  | pubRel | pingReq =>
    cases ok_of_queueJob handled
    exact followed.silent (by simp)
  | connect => cases handled
  | disconnect | pubRec | pubComp | connAck | subAck | unsubAck | pingResp =>
    cases handled
    exact followed.silent (by simp)

theorem Followed.sessionTurn {after : SessionState} {ended : Bool} {input : SessionInput}
    (turned : sessionTurn around state input = .ok (after, effects, ended)) :
    Followed (asked ++ effects) after.subscriptions := by
  cases input with
  | incoming => exact followed.handlePacket turned
  | outgoing message =>
    simp only [Mqtt.sessionTurn, queueOutgoing, bind_assoc] at turned
    cases ok_of_queueJob turned
    have same : (outgoingJob state message).1.subscriptions = state.subscriptions := by
      unfold outgoingJob
      split <;> rfl
    rw [same]
    exact followed.silent (by simp)

end

end Followed

section Step

variable {session after : Recorded} {turn : SessionInput × Surroundings}

theorem Recorded.exists_of_step (stepped : session.step turn = some after) :
    ∃ state effects ended, sessionTurn turn.2 session.state turn.1 = .ok (state, effects, ended) ∧
      after = ⟨state, session.asked ++ effects⟩ := by
  unfold Recorded.step at stepped
  split at stepped
  · next turned =>
    cases stepped
    exact ⟨_, _, _, turned, rfl⟩
  · cases stepped

theorem Recorded.followed_step (followed : Followed session.asked session.state.subscriptions)
    (stepped : session.step turn = some after) :
    Followed after.asked after.state.subscriptions := by
  obtain ⟨_, _, _, turned, rfl⟩ := exists_of_step stepped
  exact followed.sessionTurn turned

theorem Recorded.asked_step {effect : SessionEffect} (asked : effect ∈ session.asked)
    (stepped : session.step turn = some after) : effect ∈ after.asked := by
  obtain ⟨_, _, _, _, rfl⟩ := exists_of_step stepped
  exact List.mem_append_left _ asked

end Step

/-! ## What the two packets do to the tables -/

theorem lookup_unsubscribeTopics (topic : String) (topics : List String) (state : SessionState) :
    (unsubscribeTopics state topics).1.subscriptions.lookup topic =
        (if topic ∈ topics then none else state.subscriptions.lookup topic) ∧
      (unsubscribeTopics state topics).1.qosByTopic.lookup topic =
        if topic ∈ topics then none else state.qosByTopic.lookup topic := by
  induction topics generalizing state with
  | nil => exact ⟨rfl, rfl⟩
  | cons first _ ih =>
    rw [unsubscribeTopics]
    refine ⟨(ih _).1.trans ?_, (ih _).2.trans ?_⟩ <;>
    · rw [Dict.lookup_erase]
      by_cases same : topic = first <;> simp [same]

variable {around : Surroundings}

theorem lookup_of_unsubscribe {session after : Recorded} {unsub : Unsubscribe} (topic : String)
    (stepped : session.step (.incoming (.unsubscribe unsub), around) = some after) :
    after.state.subscriptions.lookup topic =
        (if topic ∈ unsub.filters then none else session.state.subscriptions.lookup topic) ∧
      after.state.qosByTopic.lookup topic =
        if topic ∈ unsub.filters then none else session.state.qosByTopic.lookup topic := by
  obtain ⟨_, _, _, turned, rfl⟩ := Recorded.exists_of_step stepped
  cases ok_of_queueJob turned
  exact lookup_unsubscribeTopics topic unsub.filters session.state

theorem made_of_subscribeTopic {noted : Bool} {state : SessionState} {filter : SubscribeFilter}
    (granted : (subscribeTopic noted state filter).2.1 ≠ subackFailure) :
    isValidSubscribeFilter (trimmed filter.topic) = true ∧
      ∃ token,
        .subscribed (trimmed filter.topic) token ∈ (subscribeTopic noted state filter).2.2 := by
  unfold subscribeTopic at granted ⊢
  dsimp only at granted ⊢
  split at granted
  · exact absurd rfl granted
  · next valid =>
    split at granted
    · exact absurd rfl granted
    · next known =>
      rw [if_neg valid, if_neg known]
      exact ⟨Classical.not_not.mp valid, _, List.mem_append_right _ (.head _)⟩

theorem made_of_subscribeTopics {item : SubscribeFilter} {code : UInt8}
    (granted : code ≠ subackFailure) (filters : List SubscribeFilter) (position : Nat)
    (state : SessionState)
    (answered : (item, code) ∈ filters.zip (subscribeTopics around position state filters).2.1) :
    isValidSubscribeFilter (trimmed item.topic) = true ∧
      ∃ token, .subscribed (trimmed item.topic) token ∈
        (subscribeTopics around position state filters).2.2 := by
  induction filters generalizing position state with
  | nil => cases answered
  | cons filter filters ih =>
    rw [subscribeTopics] at answered ⊢
    rcases List.mem_cons.mp answered with here | later
    · cases here
      obtain ⟨valid, token, made⟩ := made_of_subscribeTopic granted
      exact ⟨valid, token, List.mem_append_left _ made⟩
    · obtain ⟨valid, token, made⟩ := ih _ _ later
      exact ⟨valid, token, List.mem_append_right _ made⟩

theorem made_of_granted {state : SessionState} {after : Recorded} {sub : Subscribe}
    {filter : String}
    (stepped : Recorded.step ⟨state, []⟩ (.incoming (.subscribe sub), around) = some after)
    (granted : Granted filter sub after.asked) :
    isValidSubscribeFilter (trimmed filter) = true ∧
      ∃ token, .subscribed (trimmed filter) token ∈ after.asked := by
  obtain ⟨_, _, _, turned, rfl⟩ := Recorded.exists_of_step stepped
  obtain ⟨codes, item, code, last, answered, rfl, ok⟩ := granted
  cases ok_of_queueJob turned
  rw [List.nil_append, List.getLast?_concat] at last
  cases last
  have given : code ≠ subackFailure := by
    rcases ok with rfl | rfl <;> decide
  obtain ⟨valid, token, made⟩ := made_of_subscribeTopics given sub.filters 0 state answered
  exact ⟨valid, token, List.mem_append_right _ (List.mem_append_left _ made)⟩

/-- A valid filter is granted in any state, and its loop is filed under the trimmed
filter. -/
theorem exists_step_subscribe {filter : String} (state : SessionState)
    (valid : isValidSubscribeFilter (trimmed filter) = true) :
    ∃ after,
      Recorded.step ⟨state, []⟩ (.incoming (.subscribe ⟨1, [⟨filter, 0⟩]⟩), {}) = some after ∧
        Granted filter ⟨1, [⟨filter, 0⟩]⟩ after.asked ∧
        after.state.subscriptions.lookup (trimmed filter) = some state.tokens := by
  have taken : subscribeTopic true state ⟨filter, 0⟩ =
      ({ state with
          qosByTopic := state.qosByTopic.insert (trimmed filter) 0
          subscriptions :=
            (state.subscriptions.erase (trimmed filter)).insert (trimmed filter) state.tokens
          tokens := state.tokens + 1 }, 0,
        endSubscription state (trimmed filter) ++ [.subscribed (trimmed filter) state.tokens]) := by
    rw [subscribeTopic, if_neg (not_not.mpr valid)]
    rfl
  refine ⟨⟨(subscribeTopic true state ⟨filter, 0⟩).1,
    ((subscribeTopic true state ⟨filter, 0⟩).2.2 ++ []) ++
      [.queued (.packet (.subAck ⟨1, [(subscribeTopic true state ⟨filter, 0⟩).2.1]⟩))]⟩, rfl, ?_⟩
  rw [taken]
  refine ⟨⟨[0], ⟨filter, 0⟩, 0, List.getLast?_concat, .head _, rfl, .inl rfl⟩, ?_⟩
  exact AList.lookup_insert _

/-! ## The inverse law -/

/-- UNSUBSCRIBE undoes SUBSCRIBE exactly for the filters that are sent without white space
around them. -/
theorem unsubscribe_undoes_iff (filter : String) :
    Undoes filter ↔ (isValidSubscribeFilter (trimmed filter) = true → trimmed filter = filter) := by
  constructor
  · intro undoes valid
    by_contra padded
    -- a session that sends the filter and takes it back keeps the entry
    obtain ⟨subscribed, stepped, granted, filed⟩ := exists_step_subscribe .fresh valid
    obtain ⟨final, left⟩ :
        ∃ final, subscribed.step (.incoming (.unsubscribe ⟨2, [filter]⟩), {}) = some final :=
      ⟨_, rfl⟩
    have gone :=
      undoes.1 .fresh _ ⟨2, [filter]⟩ _ _ [] subscribed final stepped granted (.head _)
        (run_cons_eq_some.mpr ⟨final, left, rfl⟩)
    have kept := (lookup_of_unsubscribe (trimmed filter) left).1
    rw [if_neg fun member => padded (List.mem_singleton.mp member), gone.1, filed] at kept
    cases kept
  · intro clean
    refine ⟨?_, ?_⟩
    · intro state sub unsub around later between subscribed final stepped granted named ran
      obtain ⟨valid, made⟩ := made_of_granted stepped granted
      obtain ⟨ready, reached, left⟩ := run_append_eq_some.mp ran
      obtain ⟨_, left, done⟩ := run_cons_eq_some.mp left
      cases done
      have gone := lookup_of_unsubscribe (trimmed filter) left
      rw [clean valid, if_pos named, if_pos named] at gone
      have started : Followed ([] : List SessionEffect) state.subscriptions := nofun
      have followed : Followed final.asked final.state.subscriptions :=
        run_invariant Recorded.followed_step (Recorded.followed_step started stepped) ran
      rw [clean valid] at made ⊢
      refine ⟨gone.1, gone.2, made, fun token started => ?_⟩
      have kept :=
        run_invariant (fun asked stepped => Recorded.asked_step asked stepped) started ran
      rcases followed filter token kept with filed | cancelled
      · rw [gone.1] at filed
        cases filed
      · exact cancelled
    · intro session packetId around final other stepped different
      have others : trimmed other ∉ [filter] := by
        rintro member
        have same : trimmed other = filter := List.mem_singleton.mp member
        refine different ?_
        rw [← same, trimmed_trimmed]
      have kept := lookup_of_unsubscribe (trimmed other) stepped
      rwa [if_neg others, if_neg others] at kept

/-- The padded filter keeps its subscription and its loop. -/
theorem padded_filter_stays :
    ∃ final,
      run Recorded.step ⟨.fresh, []⟩
          [(.incoming (.subscribe ⟨1, [⟨" jobs", 0⟩]⟩), {}),
            (.incoming (.unsubscribe ⟨2, [" jobs"]⟩), {})] = some final ∧
        final.asked =
          [.subscribed "jobs" 0, .queued (.packet (.subAck ⟨1, [0]⟩)),
            .queued (.packet (.unsubAck 2))] ∧
        final.state.subscriptions.lookup "jobs" = some 0 ∧
        final.state.qosByTopic.lookup "jobs" = some 0 := by
  refine ⟨_, rfl, ?_⟩
  decide +kernel

end Mqtt
end CanglingBroker
