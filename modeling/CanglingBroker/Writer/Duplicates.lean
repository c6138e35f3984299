import CanglingBroker.Writer.Effects

/-!
# Publishes reported as duplicates

`QueueWriter::enqueue` records a key before the channel has the message, and
answers a repeated key from the record.  What was answered stands only if the
recording call gets its message on the channel: it may still be dropped while it
waits for a place, or be refused, and a dropped call leaves its record behind.
-/

namespace CanglingBroker

open Foundation

namespace Writer

/-- A publish of the identifier under the key waits for a place on the shard's channel. -/
def Offers (writer : Writer) (shard : ShardIndex) (key id : String) : Prop :=
  ∃ call input, writer.calls call = some (.publish input) ∧
    topicShard input.topic = shard ∧ input.idempotencyKey = some key ∧ input.id = id

/-- The identifier is on its way: the shard has it, or a call under the key still waits. -/
def Stands (writer : Writer) (shard : ShardIndex) (key id : String) : Prop :=
  id ∈ writer.kept shard ∨ writer.Offers shard key id

/-- A publish under a key that is dropped or refused while it waits: its identifier was
given to no one, and a dropped one has left no record behind. -/
def AnswersStand (writer : Writer) : WriterEvent → Prop
  | .refuse call =>
    ∀ input key, writer.calls call = some (.publish input) → input.idempotencyKey = some key →
      ∀ receipt ∈ writer.receipts, receipt.id ≠ input.id
  | .cancel call =>
    ∀ input key, writer.calls call = some (.publish input) → input.idempotencyKey = some key →
      (∀ receipt ∈ writer.receipts, receipt.id ≠ input.id) ∧
        (writer.shards (topicShard input.topic)).recent.get key ≠ some input.id
  | _ => True

/-- Every recorded key, and every duplicate the queue writer has reported, is on its
way. -/
structure Linked (writer : Writer) : Prop where
  records :
    ∀ shard key id, (writer.shards shard).recent.get key = some id → writer.Stands shard key id
  answers :
    ∀ receipt ∈ writer.receipts, receipt.duplicate = true → receipt.durable = false →
      ∃ key, writer.Stands (topicShard receipt.topic) key receipt.id

variable {before after : Writer} {shard : ShardIndex} {key id : String} {event : WriterEvent}

theorem Stands.of_sameOffers (stands : before.Stands shard key id)
    (kept : before.kept shard ⊆ after.kept shard) (same : before.SameOffers after) :
    after.Stands shard key id := by
  refine stands.imp (fun had => kept had) ?_
  rintro ⟨call, input, waiting, rest⟩
  exact ⟨call, input, (same call input).mpr waiting, rest⟩

/-- A call ends or begins: what stood stands, or that call offered it. -/
theorem Stands.of_update {moved : Nat} {value : Option Waiting}
    (stands : before.Stands shard key id) (kept : before.kept shard ⊆ after.kept shard)
    (calls : after.calls = Function.update before.calls moved value) :
    after.Stands shard key id ∨ ∃ input, before.calls moved = some (.publish input) ∧
      topicShard input.topic = shard ∧ input.idempotencyKey = some key ∧ input.id = id := by
  rcases stands with had | ⟨call, input, waiting, rest⟩
  · exact .inl (.inl (kept had))
  · by_cases same : call = moved
    · exact .inr ⟨input, same ▸ waiting, rest⟩
    · refine .inl (.inr ⟨call, input, ?_, rest⟩)
      rw [calls, Function.update_of_ne same]
      exact waiting

/-- What is on its way stays so, unless the call that offers it ends without a place. -/
theorem stands_step (below : before.CallsBelow) (effect : WriterEffect before after event)
    (stands : before.Stands shard key id) :
    after.Stands shard key id ∨ ∃ call input, before.calls call = some (.publish input) ∧
      topicShard input.topic = shard ∧ input.idempotencyKey = some key ∧ input.id = id ∧
      (event = .cancel call ∧ before.SameRecent after ∨
        event = .refuse call ∧ (before.forget input).SameRecent after) := by
  have sameCalls (kept : before.kept shard ⊆ after.kept shard)
      (calls : after.calls = before.calls) : after.Stands shard key id :=
    stands.of_sameOffers kept fun call input => by rw [calls]
  cases effect with
  | offered _ _ _ _ _ _ calls _ _ logs =>
    rcases stands.of_update (logs.kept ▸ List.Subset.refl _) calls with still | ⟨input, waiting, _⟩
    · exact .inl still
    · rw [below before.fresh (Nat.le_refl _)] at waiting
      cases waiting
  | repeated _ _ _ _ _ _ _ _ _ calls _ _ _ kept
  | batchStored _ _ _ _ _ _ _ _ _ _ _ calls _ _ _ kept =>
    exact .inl (sameCalls (kept ▸ List.Subset.refl _) calls)
  | admitted call input waiting calls _ _ _ _ kept =>
    have grows : before.kept shard ⊆ after.kept shard := by
      rw [kept, Function.update_apply]
      split
      · next here => exact here ▸ List.subset_cons_self _ _
      · exact List.Subset.refl _
    rcases stands.of_update grows calls with still | ⟨other, found, rfl, _, rfl⟩
    · exact .inl still
    · rw [waiting] at found
      cases found
      refine .inl (.inl ?_)
      rw [kept, Function.update_self]
      exact .head _
  | withdrawn _ call input _ waiting calls _ _ logs recents =>
    rcases stands.of_update (logs.kept ▸ List.Subset.refl _) calls with still | ⟨other, found, rest⟩
    · exact .inl still
    · rw [waiting] at found
      cases found
      exact .inr ⟨call, input, waiting, rest.1, rest.2.1, rest.2.2, recents⟩
  | settled _ offers _ _ logs =>
    exact .inl (stands.of_sameOffers (logs.kept ▸ List.Subset.refl _) offers)
  | moved _ _ _ same =>
    subst same
    exact .inl stands
  | storedDirectly _ _ _ _ _ _ _ _ _ _ _ calls _ _ _ kept =>
    exact .inl (sameCalls (kept shard) calls)
  | acted _ _ _ _ _ _ calls _ _ logs =>
    exact .inl (sameCalls (logs.kept ▸ List.Subset.refl _) calls)

/-- A duplicate that the queue writer reports is found under a recent key. -/
theorem record_of_receipt (effect : WriterEffect before after event) {receipt : Receipt}
    (member : receipt ∈ after.receipts) (duplicate : receipt.duplicate = true)
    (queued : receipt.durable = false) :
    receipt ∈ before.receipts ∨ ∃ name,
      (before.shards (topicShard receipt.topic)).recent.get name = some receipt.id ∧
        ∀ call, event ≠ .cancel call ∧ event ≠ .refuse call := by
  cases effect with
  | offered _ _ _ _ _ _ _ _ _ logs | withdrawn _ _ _ _ _ _ _ _ logs | settled _ _ _ _ logs
  | acted _ _ _ _ _ _ _ _ _ logs => exact .inl (logs.receipts ▸ member)
  | moved _ _ _ moved =>
    subst moved
    exact .inl member
  | batchStored _ _ _ _ _ _ _ _ _ _ _ _ _ _ receipts => exact .inl (receipts ▸ member)
  | repeated _ _ _ _ _ name _ _ found _ _ _ receipts =>
    rw [receipts] at member
    rcases List.mem_cons.mp member with rfl | old
    · exact .inr ⟨name, found, fun _ => ⟨WriterEvent.noConfusion, WriterEvent.noConfusion⟩⟩
    · exact .inl old
  | admitted _ _ _ _ _ _ _ receipts =>
    rw [receipts] at member
    rcases List.mem_cons.mp member with rfl | old
    · cases duplicate
    · exact .inl old
  | storedDirectly _ _ _ _ _ _ _ _ _ _ _ _ _ _ receipts =>
    rw [receipts] at member
    rcases List.mem_cons.mp member with rfl | old
    · cases queued
    · exact .inl old

theorem linked_step (below : before.CallsBelow) (linked : before.Linked)
    (answers : before.AnswersStand event) (effect : WriterEffect before after event) :
    after.Linked where
  records := by
    intro shard key id shown
    rcases recent_of_effect effect shown with
      old | ⟨_, topic, _, _, _, _, here, keyed, same, calls⟩
    · rcases stands_step below effect (linked.records shard key id old) with
        still | ⟨call, input, waiting, rfl, keyed, rfl, ⟨rfl, _⟩ | ⟨rfl, forgot⟩⟩
      · exact still
      -- a dropped call leaves its record behind, a refused one takes it back
      · exact absurd old (answers input key waiting keyed).2
      · rw [forgot, recent_forget_self rfl keyed] at shown
        cases shown
    · exact .inr ⟨before.fresh, _, by rw [calls, Function.update_self], here, keyed, same⟩
  answers := by
    intro receipt member duplicate queued
    rcases record_of_receipt effect member duplicate queued with old | ⟨name, found, stays⟩
    · obtain ⟨key, stands⟩ := linked.answers receipt old duplicate queued
      rcases stands_step below effect stands with
        still | ⟨call, input, waiting, _, keyed, same, ⟨rfl, _⟩ | ⟨rfl, _⟩⟩
      · exact ⟨key, still⟩
      · exact absurd same.symm ((answers input key waiting keyed).1 receipt old)
      · exact absurd same.symm (answers input key waiting keyed receipt old)
    · rcases stands_step below effect (linked.records _ name _ found) with
        still | ⟨call, _, _, _, _, _, ⟨same, _⟩ | ⟨same, _⟩⟩
      · exact ⟨name, still⟩
      · exact absurd same (stays call).1
      · exact absurd same (stays call).2

theorem linked_start {limits : Limits} {db : Database} {order : ShardIndex → List String}
    {writer : Writer} (started : start limits db order = some writer) : writer.Linked := by
  have kept : ∀ shard key id, (writer.shards shard).recent.get key = some id →
      id ∈ (db.messages (.shard shard)).rows.map (·.id) := by
    intro shard key id shown
    obtain ⟨row, member, _, rfl⟩ := row_of_start started shown
    exact List.mem_map_of_mem member
  unfold start at started
  split at started <;> cases started
  refine ⟨fun shard key id shown => .inl (kept shard key id shown), ?_⟩
  intro receipt member
  cases member

/-- In every run in which publishes under a key are dropped or refused only as
`AnswersStand` says, once no call is in progress, a publish the queue writer reported as a
duplicate has its identifier on the shard's channel or in its table. -/
theorem duplicate_admitted (limits : Limits) (db : Database) (order : ShardIndex → List String)
    (initial final : Writer) (events : List WriterEvent)
    (started : start limits db order = some initial)
    (along : Along (step limits) AnswersStand initial events)
    (ran : initial.replay limits events = some final) (quiescent : final.Quiescent) :
    ∀ receipt ∈ final.receipts, receipt.duplicate = true → receipt.durable = false →
        receipt.id ∈ final.kept (topicShard receipt.topic) := by
  have linked : final.Linked :=
    replay_invariant
      (fun wellFormed held met effect => linked_step wellFormed.below held met effect)
      started (linked_start started) along ran
  intro receipt member duplicate queued
  obtain ⟨_, had | ⟨call, input, waiting, _⟩⟩ := linked.answers receipt member duplicate queued
  · exact had
  · rw [quiescent call] at waiting
    cases waiting

/-- The channel is full; a publish waits under a key, the key is published again, another
publish is dropped while it waits, and the first one gets its place. -/
def publishedTwice : List WriterEvent :=
  [.publish none "jobs" [104, 105] "{}" "u1", .accept 0,
    .publish (some "k") "jobs" [104, 105] "{}" "u2",
    .publish (some "k") "jobs" [104, 105] "{}" "u3",
    .publish none "jobs" [104, 105] "{}" "u4", .cancel 2, .receive 13, .accept 1]

/-- No call under a key ends while it waits. -/
def answersStandCheck (writer : Writer) : WriterEvent → Bool
  | .refuse call | .cancel call =>
    match writer.calls call with
    | some (.publish input) => input.idempotencyKey.isNone
    | _ => true
  | _ => true

theorem answersStand_of_check (writer : Writer) (event : WriterEvent)
    (checked : answersStandCheck writer event = true) :
    writer.AnswersStand event := by
  cases event with
  | refuse | cancel =>
    intro input key waiting keyed
    simp only [answersStandCheck, waiting, keyed] at checked
    cases checked
  | _ => exact trivial

theorem duplicate_admitted_publishedTwice : ∃ initial final,
    start (Limits.perShard 16 1) Database.empty (fun _ => []) = some initial ∧
      initial.replay (Limits.perShard 16 1) publishedTwice = some final ∧
      (∃ receipt ∈ final.receipts, receipt.duplicate = true) ∧
      ∀ receipt ∈ final.receipts, receipt.duplicate = true → receipt.durable = false →
          receipt.id ∈ final.kept (topicShard receipt.topic) := by
  obtain ⟨initial, final, started, ran, along, repeated, ended⟩ : ∃ initial final,
      start (Limits.perShard 16 1) Database.empty (fun _ => []) = some initial ∧
        initial.replay (Limits.perShard 16 1) publishedTwice = some final ∧
        checkAlong (step (Limits.perShard 16 1)) answersStandCheck initial publishedTwice = true ∧
        (∃ receipt ∈ final.receipts, receipt.duplicate = true) ∧
        ∀ call < final.fresh, final.calls call = none :=
    exists_run_of_check (by decide +kernel)
  refine ⟨initial, final, started, ran, repeated, ?_⟩
  exact duplicate_admitted _ _ _ _ _ _ started
    (along_of_check answersStand_of_check along) ran
    (quiescent_of_fresh started ran ended)

/-- The channel is full; a publish waits under a key, the key is published again,
and the waiting publish is dropped. -/
def droppedAfterAnswer : List WriterEvent :=
  [.publish none "jobs" [104, 105] "{}" "u1", .accept 0,
    .publish (some "k") "jobs" [104, 105] "{}" "u2",
    .publish (some "k") "jobs" [104, 105] "{}" "u3", .cancel 1]

/-- The second publish was told it is a duplicate of a message that is nowhere. -/
theorem duplicate_of_nothing : ∃ initial final,
    start (Limits.perShard 16 1) Database.empty (fun _ => []) = some initial ∧
      initial.replay (Limits.perShard 16 1) droppedAfterAnswer = some final ∧
      final.Quiescent ∧
      ∃ receipt ∈ final.receipts, receipt.duplicate = true ∧ receipt.durable = false ∧
          receipt.id ∉ final.kept (topicShard receipt.topic) := by
  exact exists_quiescent_of_check (by decide +kernel)

end Writer

end CanglingBroker
