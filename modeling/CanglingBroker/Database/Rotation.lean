import CanglingBroker.Database.ClaimBatch

/-!
# The wildcard sweep

`claim_batch_for_filter` goes round the shards, and in each shard round its ready topics,
from where a shared counter says.  A round visits everything, and over consecutive calls
the counter makes every pair of a shard and a position the first one of a sweep.
-/

namespace CanglingBroker

open Foundation
open Program (Asks Ran asks_done asks_exceptBind ran_exceptBind)

/-! ## Rounds -/

theorem exists_offset {length position : Nat} (within : position < length) (start : Nat) :
    ∃ offset < length, (start + offset) % length = position := by
  have nonempty : 0 < length := Nat.zero_lt_of_lt within
  have rest : start % length < length := Nat.mod_lt _ nonempty
  refine ⟨(position + length - start % length) % length, Nat.mod_lt _ nonempty, ?_⟩
  calc
    (start + (position + length - start % length) % length) % length
        = (start % length + (position + length - start % length)) % length := by
          rw [Nat.add_mod_mod, Nat.mod_add_mod]
    _ = (position + length) % length := by
        congr 1
        omega
    _ = position := by
        rw [Nat.add_mod_right, Nat.mod_eq_of_lt within]

theorem mem_sweep (start : Nat) (shard : ShardIndex) : shard ∈ Db.sweep start := by
  obtain ⟨offset, within, here⟩ := exists_offset shard.isLt start
  refine List.mem_map.mpr ⟨offset, List.mem_range.mpr within, ?_⟩
  apply Fin.ext
  rw [← here]
  exact Nat.mod_mod_of_dvd _ (by decide)

/-- A round over the topics of a shard visits every topic.  A vector has fewer than
`2 ^ 63` elements, so the position does not wrap. -/
theorem mem_rotated {start : Nat} {topics : List String} (counter : start < 2 ^ 64)
    (short : topics.length < 2 ^ 63) {topic : String} :
    topic ∈ Db.rotated start topics ↔ topic ∈ topics := by
  constructor
  · intro member
    obtain ⟨offset, within, rfl⟩ := List.mem_map.mp member
    have nonempty := Nat.zero_lt_of_lt (List.mem_range.mp within)
    rw [List.getD_eq_getElem _ _ (Nat.mod_lt _ nonempty)]
    exact List.getElem_mem _
  · intro member
    obtain ⟨position, within, rfl⟩ := List.mem_iff_getElem.mp member
    obtain ⟨offset, bounded, here⟩ := exists_offset within (start / messageShards)
    refine List.mem_map.mpr ⟨offset, List.mem_range.mpr bounded, ?_⟩
    have noWrap : start / messageShards + offset < 2 ^ 64 := by
      have quotient : start / messageShards < 2 ^ 60 := Nat.div_lt_of_lt_mul counter
      omega
    rw [Nat.mod_eq_of_lt noWrap, here, List.getD_eq_getElem _ _ within]

/-! ## One sweep -/

/-- What one search of a sweep ends with: nothing matches what it has looked at and
nothing has changed, or it has taken a batch of a matching topic, or it has come to a
matching topic and the end of the lease cannot be expressed. -/
def Searched (db : Database) (filter : String) (now visibility limit : Nat)
    (looked : String → Prop) (outcome : Except DbError (Option (List ClaimedMessage)))
    (after : Database) : Prop :=
  (outcome = .ok none ∧ after.messages = db.messages ∧
      ∀ topic, looked topic → filterMatches filter topic = false) ∨
    (∃ topic lease messages, outcome = .ok (some messages) ∧ messages ≠ [] ∧
      filterMatches filter topic = true ∧
      TakesOldest db topic now visibility limit lease messages after) ∨
    (∃ topic problem, outcome = .error problem ∧ looked topic ∧
      filterMatches filter topic = true ∧ visibleAgain now visibility = .error problem)

namespace Searched

variable {db other after : Database} {filter : String} {now visibility limit : Nat}
  {looked seen : String → Prop} {outcome : Except DbError (Option (List ClaimedMessage))}

theorem congr (search : Searched db filter now visibility limit looked outcome after)
    (same : ∀ topic, looked topic ↔ seen topic) :
    Searched db filter now visibility limit seen outcome after := by
  rcases search with ⟨none, unchanged, unmatched⟩ | taken | ⟨topic, problem, failed, isLooked, more⟩
  · exact .inl ⟨none, unchanged, fun topic isSeen => unmatched topic ((same topic).mpr isSeen)⟩
  · exact .inr (.inl taken)
  · exact .inr (.inr ⟨topic, problem, failed, (same topic).mp isLooked, more⟩)

theorem of_messages_eq (search : Searched other filter now visibility limit looked outcome after)
    (same : other.messages = db.messages) :
    Searched db filter now visibility limit looked outcome after := by
  rcases search with
    ⟨none, unchanged, unmatched⟩ | ⟨topic, lease, messages, found, some, matched, takes⟩ | failed
  · exact .inl ⟨none, unchanged.trans same, unmatched⟩
  · exact .inr (.inl ⟨topic, lease, messages, found, some, matched, takes.of_messages_eq same⟩)
  · exact .inr (.inr failed)

end Searched

section Sweep

variable {validJson : String → Bool} {filter : String} {visibility limit now : Nat}
  {db after : Database} {outcome : Except DbError (Option (List ClaimedMessage))}

theorem searched_claimFrom {topic : String} (routed : db.Routed)
    (readable : db.Readable validJson) (ready : db.readyRows topic now ≠ [])
    (ran :
      Ran (Answered (· = now)) (Db.claimFrom validJson filter visibility limit topic).run db
        outcome after) :
    Searched db filter now visibility limit (· = topic) outcome after := by
  unfold Db.claimFrom at ran
  by_cases matched : filterMatches filter topic = true
  · rw [if_pos matched] at ran
    rcases ran_exceptBind.mp ran with ⟨messages, middle, claimed, later⟩ | ⟨problem, claimed, rfl⟩
    · rcases claimBatchForTopic_ran routed readable claimed with
        ⟨_, _, failed, _⟩ | ⟨_, lease, _, same, _, takes⟩
      · cases failed
      · cases same
        have some : messages ≠ [] := fun empty => ready (takes.eq_nil_iff.mp empty)
        rw [if_neg (fun empty => some (List.isEmpty_iff.mp empty))] at later
        obtain ⟨rfl, rfl⟩ := later
        exact .inr (.inl ⟨topic, lease, messages, rfl, some, matched, takes⟩)
    · rcases claimBatchForTopic_ran routed readable claimed with
        ⟨_, unfit, same, _⟩ | ⟨_, lease, messages, same, _⟩
      · cases same
        exact .inr (.inr ⟨topic, problem, rfl, rfl, matched, unfit⟩)
      · cases same
  · rw [if_neg matched] at ran
    obtain ⟨rfl, rfl⟩ := ran
    refine .inl ⟨rfl, rfl, ?_⟩
    rintro _ rfl
    exact Bool.eq_false_iff.mpr matched

theorem searched_firstSome {Item : Type} {body : Item → Db (Option (List ClaimedMessage))}
    {looked : Item → String → Prop} :
    ∀ {items : List Item} {state : Database}
      {outcome : Except DbError (Option (List ClaimedMessage))},
      (∀ item ∈ items, ∀ {state outcome reached}, state.messages = db.messages →
        Ran (Answered (· = now)) (body item).run state outcome reached →
          Searched db filter now visibility limit (looked item) outcome reached) →
      state.messages = db.messages →
        Ran (Answered (· = now)) (Db.firstSome body items).run state outcome after →
          Searched db filter now visibility limit
            (fun topic => ∃ item ∈ items, looked item topic) outcome after
  | [], state, outcome, _, same, ran => by
    obtain ⟨rfl, rfl⟩ := ran
    refine .inl ⟨rfl, same, ?_⟩
    rintro topic ⟨item, member, _⟩
    cases member
  | item :: rest, state, outcome, each, same, ran => by
    rcases Db.ran_firstSome_cons.mp ran with
      ⟨found, first, rfl⟩ | ⟨middle, first, later⟩ | ⟨problem, first, rfl⟩
    · rcases each item (.head _) same first with ⟨none, _⟩ | taken | ⟨_, _, failed, _⟩
      · cases none
      · exact .inr (.inl taken)
      · cases failed
    · rcases each item (.head _) same first with
        ⟨_, kept, unmatched⟩ | ⟨_, _, _, some, _⟩ | failed
      · have onward :=
          searched_firstSome (fun other member => each other (.tail _ member)) kept later
        rcases onward with
          ⟨none, unchanged, others⟩ | taken | ⟨topic, problem, failed, ⟨other, member, seen⟩, more⟩
        · refine .inl ⟨none, unchanged, ?_⟩
          rintro topic ⟨other, member, seen⟩
          rcases List.mem_cons.mp member with rfl | older
          · exact unmatched topic seen
          · exact others topic ⟨other, older, seen⟩
        · exact .inr (.inl taken)
        · exact
            .inr (.inr ⟨topic, problem, failed, ⟨other, .tail _ member, seen⟩, more⟩)
      · cases some
      · obtain ⟨_, _, failed, _⟩ := failed
        cases failed
    · rcases each item (.head _) same first with
        ⟨none, _⟩ | ⟨_, _, _, some, _⟩ | ⟨topic, _, failed, seen, more⟩
      · cases none
      · cases some
      · cases failed
        exact .inr (.inr ⟨topic, problem, rfl, ⟨item, .head _, seen⟩, more⟩)

def ReadyIn (db : Database) (now : Nat) (shard : ShardIndex) (topic : String) : Prop :=
  ∃ row ∈ (db.messages (.shard shard)).rows, row.ready now = true ∧ row.topic = topic

theorem searched_shard {start : Nat} {shard : ShardIndex} {state : Database} (routed : db.Routed)
    (readable : db.Readable validJson) (counter : start < 2 ^ 64)
    (short : (db.messages (.shard shard)).rows.length < 2 ^ 63)
    (same : state.messages = db.messages)
    (ran :
      Ran (Answered (· = now))
        (do
          let now ← Db.access .now
          let topics ← Db.sql (.readyTopics (.shard shard) now)
          Db.firstSome (Db.claimFrom validJson filter visibility limit)
            (Db.rotated start topics) : Db (Option (List ClaimedMessage))).run
        state outcome after) :
    Searched db filter now visibility limit (ReadyIn db now shard) outcome after := by
  obtain ⟨instant, _, read, listing⟩ := Db.ran_access_bind.mp ran
  obtain ⟨rfl, rfl⟩ := answered_now read
  rcases ran_exceptBind.mp listing with ⟨topics, middle, listed, searching⟩ | ⟨problem, listed, _⟩
  · obtain ⟨_, perm, answer, rfl⟩ := answered_readyTopics (Db.ran_sql.mp listed)
    cases answer
    rw [same] at perm
    have mem_topics : ∀ {topic}, topic ∈ topics ↔ ReadyIn db instant shard topic := by
      intro topic
      rw [perm.mem_iff, List.mem_dedup, List.mem_map]
      simp only [List.mem_filter, ReadyIn, and_assoc]
    have fewer : topics.length < 2 ^ 63 := by
      have le : topics.length ≤ (db.messages (.shard shard)).rows.length := by
        rw [perm.length_eq]
        refine (List.dedup_sublist _).length_le.trans ?_
        rw [List.length_map]
        exact List.length_filter_le _ _
      exact lt_of_le_of_lt le short
    have search : Searched db filter instant visibility limit
        (fun topic => ∃ item ∈ Db.rotated start topics, topic = item) outcome after := by
      refine searched_firstSome (fun topic member state outcome reached kept claiming => ?_)
        same searching
      obtain ⟨row, listed, ready, named⟩ := mem_topics.mp ((mem_rotated counter fewer).mp member)
      have some : state.readyRows topic instant ≠ [] := by
        rw [Database.readyRows_of_messages_eq kept]
        refine List.ne_nil_of_mem (a := row) (Database.mem_readyRows.mpr ⟨?_, ready, named⟩)
        exact Database.mem_stored.mpr ⟨shard, listed⟩
      have stateRouted : state.Routed := by
        intro other row listed
        exact routed other row (kept ▸ listed)
      have stateReadable : state.Readable validJson := by
        intro other row listed
        exact readable other row (kept ▸ listed)
      exact (searched_claimFrom stateRouted stateReadable some claiming).of_messages_eq kept
    refine search.congr fun topic => ?_
    rw [← mem_topics, ← mem_rotated counter fewer]
    constructor
    · rintro ⟨item, member, rfl⟩
      exact member
    · intro member
      exact ⟨topic, member, rfl⟩
  · obtain ⟨_, _, answer, _⟩ := answered_readyTopics (Db.ran_sql.mp listed)
    cases answer

theorem searched_sweep {start : Nat} {state : Database} (routed : db.Routed)
    (readable : db.Readable validJson) (counter : start < 2 ^ 64)
    (short : ∀ shard, (db.messages (.shard shard)).rows.length < 2 ^ 63)
    (same : state.messages = db.messages)
    (ran :
      Ran (Answered (· = now))
        (Db.firstSome
          (fun shard => do
            let now ← Db.access .now
            let topics ← Db.sql (.readyTopics (.shard shard) now)
            Db.firstSome (Db.claimFrom validJson filter visibility limit) (Db.rotated start topics))
          (Db.sweep start)).run
        state outcome after) :
    Searched db filter now visibility limit
      (fun topic => ∃ row ∈ db.stored, row.ready now = true ∧ row.topic = topic) outcome
      after := by
  have search :=
    searched_firstSome
      (fun shard _ {_ _ _} kept searching =>
        searched_shard routed readable counter (short shard) kept searching)
      same ran
  refine search.congr fun topic => ?_
  constructor
  · rintro ⟨shard, _, row, listed, ready⟩
    exact ⟨row, Database.mem_stored.mpr ⟨shard, listed⟩, ready⟩
  · rintro ⟨row, isStored, ready⟩
    obtain ⟨shard, listed⟩ := Database.mem_stored.mp isStored
    exact ⟨shard, mem_sweep start shard, row, listed, ready⟩

end Sweep

/-- What a claim for a filter returns: a batch of one matching topic, and nothing only
when no ready message matches. -/
structure TakesMatching (db : Database) (filter : String) (now visibility limit : Nat)
    (messages : List ClaimedMessage) (after : Database) : Prop where
  complete :
    messages ≠ [] ↔ ∃ row ∈ db.stored, row.ready now = true ∧ filterMatches filter row.topic = true
  untouched : messages = [] → after.messages = db.messages
  sound :
    messages ≠ [] → ∃ topic lease, filterMatches filter topic = true ∧
        (∀ message ∈ messages, message.topic = topic) ∧
        TakesOldest db topic now visibility limit lease messages after

section Filter

variable {db after : Database} {filter : String} {now visibility limit : Nat}

theorem takesMatching_of_takesOldest {topic lease : String} {messages : List ClaimedMessage}
    (takes : TakesOldest db topic now visibility limit lease messages after)
    (matched : filterMatches filter topic = true) (some : messages ≠ []) :
    TakesMatching db filter now visibility limit messages after := by
  refine ⟨⟨fun _ => ?_, fun _ => some⟩, fun empty => absurd empty some,
    fun _ => ⟨topic, lease, matched, fun _ member => takes.topic_eq member, takes⟩⟩
  have ready : db.readyRows topic now ≠ [] := fun none => some (takes.eq_nil_iff.mpr none)
  obtain ⟨row, member⟩ := List.exists_mem_of_ne_nil _ ready
  obtain ⟨isStored, isReady, rfl⟩ := Database.mem_readyRows.mp member
  exact ⟨row, isStored, isReady, matched⟩

theorem takesMatching_nil (unchanged : after.messages = db.messages)
    (unmatched : ∀ row ∈ db.stored, row.ready now = true → filterMatches filter row.topic = false) :
    TakesMatching db filter now visibility limit [] after := by
  refine ⟨⟨fun some => absurd rfl some, ?_⟩, fun _ => unchanged, fun some => absurd rfl some⟩
  rintro ⟨row, isStored, ready, matched⟩
  rw [unmatched row isStored ready] at matched
  cases matched

theorem Searched.takesMatching {found : Option (List ClaimedMessage)}
    (search :
      Searched db filter now visibility limit
        (fun topic => ∃ row ∈ db.stored, row.ready now = true ∧ row.topic = topic)
        (.ok found) after) :
    TakesMatching db filter now visibility limit (found.getD []) after := by
  rcases search with
    ⟨none, unchanged, unmatched⟩ | ⟨topic, lease, messages, same, some, matched, takes⟩ |
      ⟨_, _, failed, _⟩
  · cases none
    exact takesMatching_nil unchanged fun row isStored ready =>
      unmatched row.topic ⟨row, isStored, ready, rfl⟩
  · cases same
    exact takesMatching_of_takesOldest takes matched some
  · cases failed

end Filter

/-- **The wildcard claim.**  Whatever the counter is, a claim for a filter returns; it
takes a batch of one matching topic whenever a ready message matches, and changes nothing
otherwise.  For a filter without wildcards the direct claim does the same. -/
theorem claimBatchForFilter_complete (validJson : String → Bool) (db : Database) (filter : String)
    (visibility limit now : Nat) (routed : db.Routed) (readable : db.Readable validJson)
    (nonempty : filter ≠ "") (counter : db.turn < 2 ^ 64)
    (short : ∀ shard, (db.messages (.shard shard)).rows.length < 2 ^ 63) :
    (∃ outcome after,
        Ran (Answered (· = now))
          (Db.claimBatchForFilter validJson filter visibility limit).run db outcome after) ∧
      ∀ outcome after, Ran (Answered (· = now))
          (Db.claimBatchForFilter validJson filter visibility limit).run db outcome after →
          ((∃ instant, visibleAgain now visibility = .ok instant) →
              ∃ messages, outcome = .ok messages) ∧
            ∀ messages, outcome = .ok messages →
              TakesMatching db filter now visibility limit messages after := by
  constructor
  · exact exists_ran_answered (· = now) rfl _ db
  intro outcome after ran
  unfold Db.claimBatchForFilter at ran
  by_cases wildcard : isWildcardFilter filter = true
  · rw [wildcard, Bool.not_true, if_neg Bool.false_ne_true] at ran
    obtain ⟨start, _, turned, sweeping⟩ := Db.ran_access_bind.mp ran
    obtain ⟨rfl, rfl⟩ := answered_nextTurn turned
    rcases ran_exceptBind.mp sweeping with ⟨found, middle, swept, rfl, rfl⟩ | ⟨problem, swept, rfl⟩
    · have search := searched_sweep routed readable counter short (by rfl) swept
      refine ⟨fun _ => ⟨_, rfl⟩, fun messages same => ?_⟩
      cases same
      exact search.takesMatching
    · have search := searched_sweep routed readable counter short (by rfl) swept
      refine ⟨fun ⟨instant, fits⟩ => ?_, fun messages same => by cases same⟩
      rcases search with ⟨none, _⟩ | ⟨_, _, _, some, _⟩ | ⟨_, _, _, _, _, unfit⟩
      · cases none
      · cases some
      · rw [unfit] at fits
        cases fits
  · have exact : isWildcardFilter filter = false := Bool.eq_false_iff.mpr wildcard
    rw [exact, Bool.not_false, if_pos rfl] at ran
    rcases claimBatchForTopic_ran routed readable ran with
      ⟨problem, unfit, rfl, _⟩ | ⟨_, lease, messages, rfl, _, takes⟩
    · refine ⟨fun ⟨instant, fits⟩ => ?_, fun messages same => by cases same⟩
      rw [unfit] at fits
      cases fits
    · refine ⟨fun _ => ⟨messages, rfl⟩, fun other same => ?_⟩
      cases same
      by_cases empty : messages = []
      · subst empty
        refine takesMatching_nil takes.unchanged fun row isStored ready => ?_
        rw [Bool.eq_false_iff]
        intro matched
        have named := eq_of_filterMatches exact matched
        have none := takes.eq_nil_iff.mp rfl
        have member : row ∈ db.readyRows filter now :=
          Database.mem_readyRows.mpr ⟨isStored, ready, named.symm⟩
        rw [none] at member
        cases member
      · exact takesMatching_of_takesOldest takes (filterMatches_self exact nonempty) empty

theorem claimBatchForFilter_complete_backlog : ∃ messages after,
    Ran (Answered (· = 9))
        (Db.claimBatchForFilter (fun text => text = "\x7b\x7d") "#" 30 1).run
        { backlog with turn := 2 ^ 64 - 1 } (.ok messages) after ∧
      messages ≠ [] := by
  obtain ⟨⟨outcome, after, ran⟩, every⟩ :=
    claimBatchForFilter_complete (fun text => text = "\x7b\x7d")
      { backlog with turn := 2 ^ 64 - 1 } "#" 30 1 9 backlog_routed backlog_readable
      (by decide) (by decide) (by decide +kernel)
  obtain ⟨messages, rfl⟩ := (every outcome after ran).1 ⟨39, rfl⟩
  refine ⟨messages, after, ran, ((every _ after ran).2 messages rfl).complete.mpr ?_⟩
  decide +kernel

/-! ## Consecutive calls -/

/-- The shards have these ready topics at every instant the clock reads. -/
structure Steady (validJson : String → Bool) (clock : Nat → Prop)
    (topics : ShardIndex → List String) (db : Database) : Prop where
  ready :
    ∀ shard now, clock now → ∀ topic, topic ∈ topics shard ↔ ReadyIn db now shard topic
  readable : db.Readable validJson

/-- How an action is answered among other calls that do not use the counter and keep the
ready topics as they are.  They may do anything else after the action. -/
def AnsweredAmid (validJson : String → Bool) (clock : Nat → Prop)
    (topics : ShardIndex → List String) (db : Database) (request : Action)
    (answer : Reply request) (after : Database) : Prop :=
  ∃ choice middle, choice.fails = false ∧ clock choice.clock ∧
      (∀ shard now, clock now → request = .sql (.readyTopics (.shard shard) now) →
        choice.order = topics shard) ∧
      perform choice db request = some (answer, middle) ∧
      after.turn = middle.turn ∧ Steady validJson clock topics after

/-- Calls one after the other, each with its visibility and its limit, and what they
return. -/
def Consecutive (validJson : String → Bool) (clock : Nat → Prop)
    (topics : ShardIndex → List String) (filter : String) :
    List (Nat × Nat) → Database → List (Except DbError (List ClaimedMessage)) → Prop
  | [], _, outcomes => outcomes = []
  | (visibility, limit) :: rest, db, outcomes =>
    ∃ outcome middle later, Ran (AnsweredAmid validJson clock topics)
        (Db.claimBatchForFilter validJson filter visibility limit).run db outcome
        middle ∧
        Consecutive validJson clock topics filter rest middle later ∧
        outcomes = outcome :: later

section Turns

variable {validJson : String → Bool} {clock : Nat → Prop}
  {topics : ShardIndex → List String} {db after : Database}

theorem AnsweredAmid.answered {request : Action} {answer : Reply request}
    (answered : AnsweredAmid validJson clock topics db request answer after) :
    ∃ middle, Answered clock db request answer middle ∧ after.turn = middle.turn ∧
      Steady validJson clock topics after := by
  obtain ⟨choice, middle, works, ticks, _, performed, turn, steady⟩ := answered
  exact ⟨middle, ⟨choice, works, ticks, performed⟩, turn, steady⟩

theorem AnsweredAmid.listed {shard : ShardIndex} {now : Nat} (ticks : clock now)
    {answer : Except DbError (List String)}
    (answered :
      AnsweredAmid validJson clock topics db (.sql (.readyTopics (.shard shard) now)) answer
        after) :
    answer = .ok (topics shard) := by
  obtain ⟨choice, middle, works, _, order, performed, _⟩ := answered
  rw [(performed_readyTopics works performed).2.1, order shard now ticks rfl]

theorem claimBatchForTopic_amid {topic : String} {visibility limit : Nat}
    {outcome : Except DbError (List ClaimedMessage)}
    (routed : ∀ shard, ∀ name ∈ topics shard, topicShard name = shard)
    (fits : ∀ now, clock now → ∃ instant, visibleAgain now visibility = .ok instant)
    {shard : ShardIndex} (listed : topic ∈ topics shard)
    (ran :
      Ran (AnsweredAmid validJson clock topics)
        (Db.claimBatchForTopic validJson topic visibility limit).run db outcome after) :
    ∃ messages, outcome = .ok messages ∧ messages ≠ [] ∧
      ∀ message ∈ messages, message.topic = topic := by
  unfold Db.claimBatchForTopic at ran
  obtain ⟨now, _, read, drawing⟩ := Db.ran_access_bind.mp ran
  obtain ⟨_, reads, _, _⟩ := read.answered
  have ticks := (answered_now reads).1
  obtain ⟨lease, waiting, drew, claiming⟩ := Db.ran_access_bind.mp drawing
  obtain ⟨_, _, _, stillSteady⟩ := drew.answered
  obtain ⟨instant, expressed⟩ := fits now ticks
  rw [expressed] at claiming
  rcases ran_exceptBind.mp claiming with ⟨rows, middle, claimed, sorting⟩ | ⟨problem, claimed, _⟩
  · obtain ⟨_, answered, _, _⟩ := (Db.ran_sql.mp claimed).answered
    obtain ⟨picked, picks, same, _⟩ := answered_update answered
    cases same
    rw [routed shard topic listed] at picks sorting
    obtain ⟨row, found, ready, named⟩ := (stillSteady.ready shard now ticks topic).mp listed
    have candidate : row ∈ (waiting.messages (.shard shard)).rows.filter fun row =>
        row.ready now && row.topic = topic := by
      rw [List.mem_filter, ready, Bool.true_and, decide_eq_true_eq]
      exact ⟨found, named⟩
    have valid : (((Update.claimBatch lease instant now topic
        (max 1 (min limit 128))).execute picked (waiting.messages (.shard shard))).1.all
          fun row => validJson row.attributes) = true := by
      rw [List.all_eq_true]
      intro affected isAffected
      obtain ⟨before, isBefore, _, rfl⟩ := Update.mem_affected.mp isAffected
      exact stillSteady.readable shard before isBefore
    rw [if_pos valid] at sorting
    obtain ⟨rfl, rfl⟩ := sorting
    refine ⟨_, rfl, ?_, ?_⟩
    · intro empty
      have ids := returned_ids_perm lease instant picks
      have none : picked = [] := by
        have lengths := ids.length_eq
        rw [List.length_map, Db.returned, empty] at lengths
        exact List.length_eq_zero_iff.mp lengths.symm
      have count := picks.2.1
      rw [none, List.length_nil] at count
      have positive := List.length_pos_of_mem candidate
      omega
    · intro message member
      obtain ⟨affected, isAffected, rfl⟩ := mem_returned member
      exact topic_of_affected picks isAffected
  · obtain ⟨_, answered, _, _⟩ := (Db.ran_sql.mp claimed).answered
    obtain ⟨picked, picks, same, _⟩ := answered_update answered
    cases same

def Sweeps : Action → Prop
  | .access .now | .access .newUuid | .sql (.readyTopics _ _) | .sql (.update _ _) => True
  | _ => False

theorem asks_claimBatchForTopic (topic : String) (visibility limit : Nat) :
    Asks Sweeps (Db.claimBatchForTopic validJson topic visibility limit).run := by
  refine asks_exceptBind (Db.asks_access trivial) fun now => ?_
  refine asks_exceptBind (Db.asks_access trivial) fun lease => ?_
  split
  · exact asks_done _
  · refine asks_exceptBind (Db.asks_sql trivial) fun rows => ?_
    split
    · exact asks_done _
    · exact asks_done _

theorem asks_claimFrom (filter : String) (visibility limit : Nat) (topic : String) :
    Asks Sweeps (Db.claimFrom validJson filter visibility limit topic).run := by
  unfold Db.claimFrom
  split
  · refine asks_exceptBind (asks_claimBatchForTopic topic visibility limit) fun messages => ?_
    split
    · exact asks_done _
    · exact asks_done _
  · exact asks_done _

theorem steady_of_sweeps {Result : Type} {program : Program Action Reply Result} {value : Result}
    (asks : Asks Sweeps program)
    (ran : Ran (AnsweredAmid validJson clock topics) program db value after)
    (steady : Steady validJson clock topics db) :
    after.turn = db.turn ∧ Steady validJson clock topics after := by
  refine @Ran.keeps _ _ _ _ _ _ _
    (fun state => state.turn = db.turn ∧ Steady validJson clock topics state)
    ?_ asks _ _ _ ran ⟨rfl, steady⟩
  rintro state request answer reached sweeps responded ⟨turn, _⟩
  obtain ⟨middle, answered, same, stillSteady⟩ := responded.answered
  refine ⟨?_, stillSteady⟩
  rw [same, ← turn]
  match request, sweeps with
  | .access .now, _ => rw [(answered_now answered).2]
  | .access .newUuid, _ => rw [(answered_newUuid answered).2]
  | .sql (.readyTopics _ _), _ =>
    obtain ⟨_, _, _, rfl⟩ := answered_readyTopics answered
    rfl
  | .sql (.update _ _), _ =>
    obtain ⟨_, _, _, rfl⟩ := answered_update answered
    rfl

theorem rotated_eq_cons {start : Nat} {names : List String} (counter : start < 2 ^ 64)
    (within : start / messageShards % names.length < names.length) :
    ∃ rest, Db.rotated start names = names[start / messageShards % names.length] :: rest := by
  obtain ⟨more, length⟩ := Nat.exists_eq_succ_of_ne_zero (Nat.ne_of_gt (Nat.zero_lt_of_lt within))
  have range : List.range names.length = 0 :: (List.range more).map Nat.succ := by
    rw [length, List.range_succ_eq_map]
  have small : start / messageShards < 2 ^ 64 := lt_of_le_of_lt (Nat.div_le_self _ _) counter
  rw [Db.rotated, range, List.map_cons, Nat.add_zero, Nat.mod_eq_of_lt small,
    List.getD_eq_getElem _ _ within]
  exact ⟨_, rfl⟩

theorem sweep_eq_cons {start : Nat} (counter : start < 2 ^ 64) :
    ∃ rest, Db.sweep start = Fin.ofNat messageShards start :: rest := by
  have range : List.range messageShards = 0 :: (List.range 15).map Nat.succ :=
    List.range_succ_eq_map
  rw [Db.sweep, range, List.map_cons, Nat.add_zero, Nat.mod_eq_of_lt counter]
  exact ⟨_, rfl⟩

section Call

variable {filter : String} {visibility limit : Nat} {outcome : Except DbError (List ClaimedMessage)}

theorem claimBatchForFilter_turn (wildcard : isWildcardFilter filter = true)
    (ran :
      Ran (AnsweredAmid validJson clock topics)
        (Db.claimBatchForFilter validJson filter visibility limit).run db outcome after) :
    after.turn = (db.turn + 1) % 2 ^ 64 ∧ Steady validJson clock topics after := by
  unfold Db.claimBatchForFilter at ran
  rw [wildcard, Bool.not_true, if_neg Bool.false_ne_true] at ran
  obtain ⟨start, started, turned, sweeping⟩ := Db.ran_access_bind.mp ran
  obtain ⟨middle, answered, turn, stillSteady⟩ := turned.answered
  have next : started.turn = (db.turn + 1) % 2 ^ 64 := by
    rw [turn, (answered_nextTurn answered).2]
  rw [← next]
  refine steady_of_sweeps ?_ sweeping stillSteady
  refine asks_exceptBind (Db.asks_firstSome (fun shard => ?_) _) fun found => asks_done _
  refine asks_exceptBind (Db.asks_access trivial) fun now => ?_
  refine asks_exceptBind (Db.asks_sql trivial) fun names => ?_
  exact Db.asks_firstSome (fun topic => asks_claimFrom filter visibility limit topic) _

/-- A search of a shard that comes to a matching topic first ends with it. -/
theorem searches_first {start : Nat} {found : Except DbError (Option (List ClaimedMessage))}
    (routed : ∀ shard, ∀ name ∈ topics shard, topicShard name = shard)
    (fits : ∀ now, clock now → ∃ instant, visibleAgain now visibility = .ok instant)
    (counter : start < 2 ^ 64) {shard : ShardIndex}
    (within : start / messageShards % (topics shard).length < (topics shard).length)
    (matched :
      filterMatches filter (topics shard)[start / messageShards % (topics shard).length] = true)
    (ran :
      Ran (AnsweredAmid validJson clock topics)
        (do
          let now ← Db.access .now
          let names ← Db.sql (.readyTopics (.shard shard) now)
          Db.firstSome (Db.claimFrom validJson filter visibility limit)
            (Db.rotated start names) : Db (Option (List ClaimedMessage))).run
        db found after) :
    ∃ messages, found = .ok (some messages) ∧ messages ≠ [] ∧ ∀ message ∈ messages,
        message.topic = (topics shard)[start / messageShards % (topics shard).length] := by
  obtain ⟨now, _, read, listing⟩ := Db.ran_access_bind.mp ran
  obtain ⟨_, reads, _⟩ := read.answered
  have ticks := (answered_now reads).1
  rcases ran_exceptBind.mp listing with ⟨names, middle, listed, searching⟩ | ⟨problem, listed, _⟩
  · have same := (Db.ran_sql.mp listed).listed ticks
    cases same
    obtain ⟨rest, rotated⟩ := rotated_eq_cons counter within
    rw [rotated] at searching
    -- the claim of that topic cannot come back empty
    have claims : ∀ {outcome reached},
        Ran (AnsweredAmid validJson clock topics)
            (Db.claimFrom validJson filter visibility limit
              (topics shard)[start / messageShards % (topics shard).length]).run middle
            outcome reached →
          ∃ messages, outcome = .ok (some messages) ∧ messages ≠ [] ∧ ∀ message ∈ messages,
              message.topic = (topics shard)[start / messageShards % (topics shard).length] := by
      intro outcome reached claiming
      rw [Db.claimFrom, if_pos matched] at claiming
      rcases ran_exceptBind.mp claiming with ⟨messages, _, claimed, later⟩ | ⟨_, claimed, _⟩
      · obtain ⟨_, same, some, named⟩ :=
          claimBatchForTopic_amid routed fits (List.getElem_mem within) claimed
        cases same
        rw [if_neg (fun empty => some (List.isEmpty_iff.mp empty))] at later
        obtain ⟨rfl, rfl⟩ := later
        exact ⟨messages, rfl, some, named⟩
      · obtain ⟨_, same, _⟩ :=
          claimBatchForTopic_amid routed fits (List.getElem_mem within) claimed
        cases same
    exact Db.ran_firstSome_head searching claims
  · have same := (Db.ran_sql.mp listed).listed ticks
    cases same

theorem claimBatchForFilter_first (routed : ∀ shard, ∀ name ∈ topics shard, topicShard name = shard)
    (wildcard : isWildcardFilter filter = true)
    (fits : ∀ now, clock now → ∃ instant, visibleAgain now visibility = .ok instant)
    (counter : db.turn < 2 ^ 64) {shard : ShardIndex}
    (isFirst : Fin.ofNat messageShards db.turn = shard)
    (within : db.turn / messageShards % (topics shard).length < (topics shard).length)
    (matched :
      filterMatches filter (topics shard)[db.turn / messageShards % (topics shard).length] = true)
    (ran :
      Ran (AnsweredAmid validJson clock topics)
        (Db.claimBatchForFilter validJson filter visibility limit).run db outcome after) :
    ∃ messages, outcome = .ok messages ∧ messages ≠ [] ∧ ∀ message ∈ messages,
        message.topic = (topics shard)[db.turn / messageShards % (topics shard).length] := by
  unfold Db.claimBatchForFilter at ran
  rw [wildcard, Bool.not_true, if_neg Bool.false_ne_true] at ran
  obtain ⟨start, started, turned, sweeping⟩ := Db.ran_access_bind.mp ran
  obtain ⟨_, answered, _⟩ := turned.answered
  obtain ⟨rfl, _⟩ := answered_nextTurn answered
  obtain ⟨rest, sweep⟩ := sweep_eq_cons counter
  rw [sweep, isFirst] at sweeping
  rcases ran_exceptBind.mp sweeping with ⟨found, middle, swept, rfl, rfl⟩ | ⟨problem, swept, rfl⟩
  · obtain ⟨messages, same, some, named⟩ :=
      Db.ran_firstSome_head swept (searches_first routed fits counter within matched)
    cases same
    exact ⟨messages, rfl, some, named⟩
  · obtain ⟨messages, same, _⟩ :=
      Db.ran_firstSome_head swept (searches_first routed fits counter within matched)
    cases same

end Call

theorem consecutive_at {filter : String} (wildcard : isWildcardFilter filter = true) :
    ∀ {calls : List (Nat × Nat)} {db : Database}
      {outcomes : List (Except DbError (List ClaimedMessage))},
      Steady validJson clock topics db → db.turn + calls.length ≤ 2 ^ 64 →
        Consecutive validJson clock topics filter calls db outcomes → ∀ position < calls.length,
            ∃ call ∈ calls, ∃ outcome ∈ outcomes, ∃ state reached,
              Steady validJson clock topics state ∧ state.turn = db.turn + position ∧
                Ran (AnsweredAmid validJson clock topics)
                  (Db.claimBatchForFilter validJson filter call.1 call.2).run state outcome
                  reached
  | [], _, _, _, _, _, position, within => absurd within (Nat.not_lt_zero position)
  | (visibility, limit) :: rest, db, outcomes, steady, noWrap, ran, position, within => by
    obtain ⟨outcome, middle, later, first, onward, rfl⟩ := ran
    obtain ⟨turn, stillSteady⟩ := claimBatchForFilter_turn wildcard first
    rw [List.length_cons] at noWrap within
    cases position with
    | zero =>
      exact ⟨(visibility, limit), .head _, outcome, .head _, db, middle, steady, rfl, first⟩
    | succ position =>
      have within : position < rest.length := Nat.lt_of_succ_lt_succ within
      have next : middle.turn = db.turn + 1 := by
        rw [turn]
        exact Nat.mod_eq_of_lt (by omega)
      obtain ⟨call, isCall, result, isResult, state, reached, isSteady, turned, called⟩ :=
        consecutive_at wildcard stillSteady (by omega) onward position within
      refine ⟨call, .tail _ isCall, result, .tail _ isResult, state, reached, isSteady, ?_, called⟩
      rw [turned, next]
      omega

end Turns

def mostTopics (topics : ShardIndex → List String) : Nat :=
  Finset.univ.sup fun shard => (topics shard).length

variable {topics : ShardIndex → List String}

theorem exists_turn {shard : ShardIndex} {position : Nat}
    (within : position < (topics shard).length) (start : Nat) :
    ∃ offset < messageShards * mostTopics topics, Fin.ofNat messageShards (start + offset) = shard ∧
        (start + offset) / messageShards % (topics shard).length = position := by
  have most : (topics shard).length ≤ mostTopics topics :=
    Finset.le_sup (f := fun shard => (topics shard).length) (Finset.mem_univ shard)
  obtain ⟨first, isFirst, here⟩ := exists_offset shard.isLt start
  obtain ⟨rounds, isRound, there⟩ := exists_offset within ((start + first) / messageShards)
  refine ⟨first + messageShards * rounds, ?_, ?_, ?_⟩
  · calc
      first + messageShards * rounds < messageShards * 1 + messageShards * rounds := by omega
      _ = messageShards * (rounds + 1) := by ring
      _ ≤ messageShards * mostTopics topics := Nat.mul_le_mul_left _ (by omega)
  · apply Fin.ext
    rw [← here, ← Nat.add_assoc]
    exact Nat.add_mul_mod_self_left _ _ _
  · rw [← Nat.add_assoc, Nat.add_mul_div_left _ _ (by decide), there]

/-- **Every topic has its turn.**  As long as the shards keep their ready topics and no
other call uses the counter, sixteen times as many consecutive wildcard claims as the
fullest shard has ready topics take a batch of every one that matches. -/
theorem rotation_visits_all (validJson : String → Bool) (clock : Nat → Prop)
    (topics : ShardIndex → List String) (filter : String) (calls : List (Nat × Nat))
    (db : Database) (outcomes : List (Except DbError (List ClaimedMessage)))
    (routed : ∀ shard, ∀ name ∈ topics shard, topicShard name = shard)
    (steady : Steady validJson clock topics db)
    (fits : ∀ call ∈ calls, ∀ now, clock now → ∃ instant, visibleAgain now call.1 = .ok instant)
    (enough : calls.length = 16 * mostTopics topics) (noWrap : db.turn + calls.length ≤ 2 ^ 64)
    (ran : Consecutive validJson clock topics filter calls db outcomes) :
    ∀ shard, ∀ topic ∈ topics shard, filterMatches filter topic = true →
      ∃ messages, .ok messages ∈ outcomes ∧ messages ≠ [] ∧
        ∀ message ∈ messages, message.topic = topic := by
  intro shard topic listed matched
  obtain ⟨position, within, rfl⟩ := List.mem_iff_getElem.mp listed
  by_cases wildcard : isWildcardFilter filter = true
  · obtain ⟨offset, early, isShard, isPosition⟩ := exists_turn within db.turn
    have early : offset < calls.length := enough ▸ early
    obtain ⟨call, isCall, outcome, isOutcome, state, reached, isSteady, turn, called⟩ :=
      consecutive_at wildcard steady noWrap ran offset early
    have counter : state.turn < 2 ^ 64 := by omega
    rw [← turn] at isShard isPosition
    subst isPosition
    obtain ⟨messages, rfl, some, named⟩ :=
      claimBatchForFilter_first routed wildcard (fits call isCall) counter isShard
        within matched called
    exact ⟨messages, isOutcome, some, named⟩
  · have exact := Bool.eq_false_iff.mpr wildcard
    have most : (topics shard).length ≤ mostTopics topics :=
      Finset.le_sup (f := fun shard => (topics shard).length) (Finset.mem_univ shard)
    cases calls with
    | nil =>
      rw [List.length_nil] at enough
      omega
    | cons call =>
      obtain ⟨outcome, middle, later, first, _, rfl⟩ := ran
      have fits := fits call (.head _)
      rw [Db.claimBatchForFilter, exact, Bool.not_false, if_pos rfl,
        eq_of_filterMatches exact matched] at first
      obtain ⟨messages, rfl, some, named⟩ := claimBatchForTopic_amid routed fits listed first
      exact ⟨messages, .head _, some, named⟩

/-- Topics that stay ready: other calls can keep them so, and the calls return. -/
theorem exists_consecutive {validJson : String → Bool} {clock : Nat → Prop} (ticks : clock 0)
    (distinct : ∀ shard, (topics shard).Nodup) (filter : String) :
    ∀ (calls : List (Nat × Nat)) (db : Database), Steady validJson clock topics db →
        ∃ outcomes, Consecutive validJson clock topics filter calls db outcomes
  | [], _, _ => ⟨[], rfl⟩
  | (visibility, limit) :: rest, db, steady => by
    have responds : ∀ state request, Steady validJson clock topics state →
        ∃ answer reached,
          AnsweredAmid validJson clock topics state request answer reached ∧
            Steady validJson clock topics reached := by
      intro state request isSteady
      -- afterwards the messages are put back as they were
      have putBack : ∀ middle : Database,
          Steady validJson clock topics { state with turn := middle.turn } :=
        fun middle => ⟨isSteady.ready, isSteady.readable⟩
      by_cases listing : ∃ shard now, clock now ∧ request = .sql (.readyTopics (.shard shard) now)
      · obtain ⟨shard, now, early, rfl⟩ := listing
        have perm : (topics shard).Perm
            (((state.messages (.shard shard)).rows.filter (·.ready now)).map (·.topic)).dedup := by
          refine (List.perm_ext_iff_of_nodup (distinct shard) (List.nodup_dedup _)).mpr ?_
          intro topic
          rw [isSteady.ready shard now early, List.mem_dedup, List.mem_map]
          simp only [List.mem_filter, ReadyIn, and_assoc]
        refine ⟨.ok (topics shard), state, ⟨⟨false, 0, "", topics shard⟩, state, rfl, ticks, ?_,
          ?_, rfl, isSteady⟩, isSteady⟩
        · intro other instant _ same
          cases same
          rfl
        · rw [perform, if_neg Bool.false_ne_true, Sql.execute, if_pos perm]
      · obtain ⟨answer, middle, choice, works, reads, performed⟩ :=
          exists_answered clock 0 ticks state request
        refine ⟨answer, { state with turn := middle.turn },
          ⟨choice, middle, works, reads, ?_, performed, rfl, putBack middle⟩,
          putBack middle⟩
        intro shard now early same
        exact absurd ⟨shard, now, early, same⟩ listing
    obtain ⟨outcome, middle, ran, stillSteady⟩ :=
      Program.exists_ran responds
        (Db.claimBatchForFilter validJson filter visibility limit).run db steady
    obtain ⟨outcomes, onward⟩ := exists_consecutive ticks distinct filter rest middle stillSteady
    exact ⟨outcome :: outcomes, outcome, middle, outcomes, ran, onward, rfl⟩

/-- Two topics of one shard, ready from the start. -/
def twoTopics : Database :=
  Database.empty.setMessages (.shard 13)
    { rows :=
        [⟨⟨"s13-a", none, "jobs", [104], "\x7b\x7d", 0⟩, .pending, 0, 0, none, none, none⟩,
          ⟨⟨"s13-b", none, "z", [105], "\x7b\x7d", 0⟩, .pending, 0, 0, none, none, none⟩]
      primaryNodup := by decide
      alternateNodup := by decide }

def twoListed (shard : ShardIndex) : List String :=
  if shard = 13 then ["z", "jobs"] else []

theorem twoTopics_steady :
    Steady (fun text => text = "\x7b\x7d") (· < 100) twoListed twoTopics := by
  constructor
  · intro shard now _ topic
    by_cases here : shard = 13
    · subst here
      simp only [twoListed, ReadyIn, twoTopics, Database.setMessages_messages_self]
      constructor
      · intro listed
        rcases List.mem_pair.mp listed with rfl | rfl
        · exact ⟨_, .tail _ (.head _), rfl, rfl⟩
        · exact ⟨_, .head _, rfl, rfl⟩
      · rintro ⟨row, member, _, rfl⟩
        rcases List.mem_pair.mp member with rfl | rfl
        · exact .tail _ (.head _)
        · exact .head _
    · have different : Store.shard shard ≠ .shard 13 := fun same => here (Store.shard.inj same)
      simp [twoListed, here, ReadyIn, twoTopics, Database.setMessages, different,
        Database.empty, Table.empty]
  · unfold Database.Readable
    decide +kernel

theorem rotation_visits_all_twoTopics : ∃ outcomes,
    Consecutive (fun text => text = "\x7b\x7d") (· < 100) twoListed "#"
        (List.replicate 32 (30, 1)) twoTopics outcomes ∧
      ∃ messages, .ok messages ∈ outcomes ∧ messages ≠ [] ∧
        ∀ message ∈ messages, message.topic = "z" := by
  obtain ⟨outcomes, ran⟩ :=
    exists_consecutive (by decide) (by decide) "#" (List.replicate 32 (30, 1)) twoTopics
      twoTopics_steady
  refine ⟨outcomes, ran, ?_⟩
  refine rotation_visits_all _ _ _ _ _ _ _ (by decide +kernel) twoTopics_steady ?_
    (by decide) (by decide) ran 13 "z" (by decide) (by decide)
  intro call isCall now early
  have early : now + 30 ≤ lastInstant :=
    (Nat.add_le_add_right (Nat.le_of_lt early) 30).trans (by decide)
  rw [List.eq_of_mem_replicate isCall]
  exact ⟨now + 30, if_neg (Nat.not_lt.mpr early)⟩

end CanglingBroker
