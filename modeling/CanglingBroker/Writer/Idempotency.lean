import CanglingBroker.Writer.Shutdown

/-!
# One message for each idempotency key

The recent keys of a shard's channel and the `UNIQUE` column of its table decide on their
own whether a key was used before.  `Undisturbed` says what a step must not do to a key;
then the key is `free`, then `offered` by one call that waits, then `accepted`, and what the
two places say about it agrees.
-/

namespace CanglingBroker

open Foundation

/-- The messages under a key the task still has to store. -/
def WriterShard.unstoredUnder (key : String) (shard : WriterShard) :
    List EnqueueInput :=
  shard.unstored.filter fun input => input.idempotencyKey = some key

namespace Writer

/-- The call waits to put a message under the key on the shard's channel. -/
def WaitsUnder (writer : Writer) (shard : ShardIndex) (key : String) (call : Nat)
    (input : EnqueueInput) : Prop :=
  writer.calls call = some (.publish input) ∧ topicShard input.topic = shard ∧
    input.idempotencyKey = some key

/-- What publishes of the topic under the key were told. -/
def answersUnder (writer : Writer) (topic key : String) : List Receipt :=
  writer.receipts.filter fun receipt => receipt.topic = topic ∧ receipt.key = some key

def rowsUnder (writer : Writer) (shard : ShardIndex) (key : String) :
    List Message :=
  storedUnder key (writer.db.messages (.shard shard))

/-- A publish under the key is of the topic, and the HTTP path has called no publish under
it the first; a publish under another key does not evict the key. -/
def PublishesApart (writer : Writer) (topic key : String) (used name id : String) : Prop :=
  (used = key → name = topic ∧ ∀ receipt ∈ writer.answersUnder topic key,
      receipt.durable = true → receipt.duplicate = true) ∧
    (used ≠ key → ∀ recent ∈ (writer.shards (topicShard topic)).recent.insert used id,
      recent.get key = (writer.shards (topicShard topic)).recent.get key)

instance (writer : Writer) (topic key used name id : String) :
    Decidable (writer.PublishesApart topic key used name id) :=
  inferInstanceAs (Decidable (_ ∧ _))

/-- What the steps of a run leave to the key of a topic.  Publishes are as above, and one
over the HTTP path finds no message under the key on its way.  A publish under the key is
not dropped while it waits, and is refused only if its identifier was given to no one.  A
`DELETE` spares what is stored under the key. -/
def Undisturbed (topic key : String) (writer : Writer) : WriterEvent → Prop
  | .publish keyText name _ _ uuid =>
    topicShard name = topicShard topic → ∀ used, keyText.filter (· ≠ "") = some used →
      writer.PublishesApart topic key used name (newMessageId name uuid)
  | .store keyText name _ _ _ _ _ =>
    topicShard name = topicShard topic → keyText.filter (· ≠ "") = some key →
      name = topic ∧ (∀ call input, ¬ writer.WaitsUnder (topicShard topic) key call input) ∧
        (writer.shards (topicShard topic)).unstoredUnder key = []
  | .refuse call =>
    ∀ input, writer.WaitsUnder (topicShard topic) key call input →
      ∀ receipt ∈ writer.receipts, receipt.id ≠ input.id
  | .cancel call => ∀ input, ¬ writer.WaitsUnder (topicShard topic) key call input
  | .other request _ =>
    ∀ removal, request = .sql (.remove (.shard (topicShard topic)) removal) →
      ∀ row ∈ (writer.db.messages (.shard (topicShard topic))).rows,
        row.idempotencyKey = some key → removal.guard row = false
  | _ => True

/-- The message under the key that was accepted is still to be stored, or it is
stored. -/
inductive Carried (writer : Writer) (shard : ShardIndex) (key id : String) : Prop
  | toStore (input : EnqueueInput)
      (unstored : (writer.shards shard).unstoredUnder key = [input])
      (stored : writer.rowsUnder shard key = []) (sameId : input.id = id)
  | stored (message : Message)
      (unstored : (writer.shards shard).unstoredUnder key = [])
      (stored : writer.rowsUnder shard key = [message]) (sameId : message.id = id)

/-- The state of a key.  `originals` is how many publishes of the topic under it are to be
told that they were the first: none if it was stored from the start.  The recent keys have
an accepted key, unless the HTTP path stored it first. -/
inductive KeyState (originals : Nat) (writer : Writer) (shard : ShardIndex)
    (topic key : String) : Prop
  | free (fresh : originals = 1)
      (noCall : ∀ call input, ¬ writer.WaitsUnder shard key call input)
      (unstored : (writer.shards shard).unstoredUnder key = [])
      (stored : writer.rowsUnder shard key = [])
      (recent : (writer.shards shard).recent.get key = none)
      (answers : writer.answersUnder topic key = [])
  | offered (fresh : originals = 1) (call : Nat) (input : EnqueueInput)
      (waits : writer.WaitsUnder shard key call input) (sameTopic : input.topic = topic)
      (only : ∀ other later, writer.WaitsUnder shard key other later → other = call)
      (unstored : (writer.shards shard).unstoredUnder key = [])
      (stored : writer.rowsUnder shard key = [])
      (recent : (writer.shards shard).recent.get key = some input.id)
      (answers :
        ∀ receipt ∈ writer.answersUnder topic key, receipt.id = input.id ∧ receipt.duplicate = true)
  | accepted (id : String)
      (noCall : ∀ call input, ¬ writer.WaitsUnder shard key call input)
      (carried : writer.Carried shard key id)
      (recent :
        (writer.shards shard).recent.get key = some id ∨
          (writer.shards shard).recent.get key = none ∧
            ∃ receipt ∈ writer.answersUnder topic key,
              receipt.durable = true ∧ receipt.duplicate = false)
      (answers : ∀ receipt ∈ writer.answersUnder topic key, receipt.id = id)
      (once :
        (writer.answersUnder topic key).countP (fun receipt => !receipt.duplicate) = originals)

/-- The recent keys or the table answer for the key with the identifier. -/
def Names (writer : Writer) (shard : ShardIndex) (key id : String) : Prop :=
  (writer.shards shard).recent.get key = some id ∨
    ∃ message ∈ writer.rowsUnder shard key, message.id = id

/-! ## What leaves a key alone -/

/-- Nothing that the state of the key depends on has changed. -/
structure SameKey (before after : Writer) (shard : ShardIndex) (topic key : String) :
    Prop where
  waits :
    ∀ call input, after.WaitsUnder shard key call input ↔ before.WaitsUnder shard key call input
  unstored : (after.shards shard).unstoredUnder key = (before.shards shard).unstoredUnder key
  stored : after.rowsUnder shard key = before.rowsUnder shard key
  recent : (after.shards shard).recent.get key = (before.shards shard).recent.get key
  answers : after.answersUnder topic key = before.answersUnder topic key

section Frame

variable {before after : Writer} {shard : ShardIndex} {topic key : String}
  {originals : Nat} {input : EnqueueInput} {id : String}

theorem WaitsUnder.same_input {call : Nat} {other : EnqueueInput}
    (waits : before.WaitsUnder shard key call input)
    (alsoWaits : before.WaitsUnder shard key call other) : other = input := by
  have found := alsoWaits.1
  rw [waits.1] at found
  cases found
  rfl

/-- Where nothing is stored under a key, only the recent keys answer for it. -/
theorem Names.recent (names : before.Names shard key id)
    (stored : before.rowsUnder shard key = []) :
    (before.shards shard).recent.get key = some id := by
  rcases names with recent | ⟨message, member, _⟩
  · exact recent
  · rw [stored] at member
    cases member

theorem Carried.id_eq_of_names {other : String} (carried : before.Carried shard key id) (recent :
    ∀ found, (before.shards shard).recent.get key = some found → found = id)
    (names : before.Names shard key other) : other = id := by
  rcases names with found | ⟨message, member, rfl⟩
  · exact recent other found
  · cases carried with
    | toStore _ _ stored =>
      rw [stored] at member
      cases member
    | stored only _ stored sameId =>
      rw [stored] at member
      exact List.mem_singleton.mp member ▸ sameId

/-- The state of a key stays when what there is under it stays, and new answers repeat
what the recent keys or the table have under it. -/
theorem KeyState.transfer (state : before.KeyState originals shard topic key)
    (waits :
      ∀ call input, after.WaitsUnder shard key call input ↔ before.WaitsUnder shard key call input)
    (nothing :
      (before.shards shard).unstoredUnder key = [] →
        (after.shards shard).unstoredUnder key = [] ∧
          after.rowsUnder shard key = before.rowsUnder shard key)
    (carries : ∀ id, before.Carried shard key id → after.Carried shard key id)
    (sameRecent : (after.shards shard).recent.get key = (before.shards shard).recent.get key)
    {added : List Receipt}
    (answered : after.answersUnder topic key = added ++ before.answersUnder topic key)
    (repeats :
      ∀ receipt ∈ added, receipt.duplicate = true ∧ before.Names shard key receipt.id) :
    after.KeyState originals shard topic key := by
  cases state with
  | free fresh noCall unstored stored recent answers =>
    have none : added = [] := by
      refine List.eq_nil_iff_forall_not_mem.mpr fun receipt member => ?_
      have found := (repeats receipt member).2.recent stored
      rw [recent] at found
      cases found
    refine .free fresh (fun call input waiting => ?_) (nothing unstored).1
      ((nothing unstored).2.trans stored) (sameRecent.trans recent) ?_
    · exact noCall call input ((waits call input).mp waiting)
    · rw [answered, none, answers]
      rfl
  | offered fresh call input waiting sameTopic only unstored stored recent answers =>
    refine .offered fresh call input ((waits call input).mpr waiting) sameTopic ?_
      (nothing unstored).1 ((nothing unstored).2.trans stored) (sameRecent.trans recent)
      fun receipt member => ?_
    · intro other later alsoWaits
      exact only other later ((waits other later).mp alsoWaits)
    · rw [answered] at member
      rcases List.mem_append.mp member with new | older
      · obtain ⟨duplicate, names⟩ := repeats receipt new
        have found := names.recent stored
        rw [recent, Option.some.injEq] at found
        exact ⟨found.symm, duplicate⟩
      · exact answers receipt older
  | accepted id noCall carried recent answers once =>
    refine .accepted id (fun call input waiting => ?_) (carries id carried) ?_
      (fun receipt member => ?_) ?_
    · exact noCall call input ((waits call input).mp waiting)
    · rw [sameRecent, answered]
      refine recent.imp_right fun ⟨unrecorded, receipt, member, first⟩ => ?_
      exact ⟨unrecorded, receipt, List.mem_append_right _ member, first⟩
    · rw [answered] at member
      rcases List.mem_append.mp member with new | older
      · refine carried.id_eq_of_names (fun found shown => ?_) (repeats receipt new).2
        rcases recent with same | ⟨unrecorded, _⟩
        · exact Option.some.inj (shown.symm.trans same)
        · rw [unrecorded] at shown
          cases shown
      · exact answers receipt older
    · have none : added.countP (fun receipt => !receipt.duplicate) = 0 := by
        rw [List.countP_eq_zero]
        intro receipt new
        simp [(repeats receipt new).1]
      rw [answered, List.countP_append, none, Nat.zero_add, once]

theorem Carried.of_same (carried : before.Carried shard key id)
    (unstored : (after.shards shard).unstoredUnder key = (before.shards shard).unstoredUnder key)
    (stored : after.rowsUnder shard key = before.rowsUnder shard key) :
    after.Carried shard key id := by
  cases carried with
  | toStore input one noRow sameId =>
    exact .toStore input (unstored.trans one) (stored.trans noRow) sameId
  | stored message none oneRow sameId =>
    exact .stored message (unstored.trans none) (stored.trans oneRow) sameId

theorem KeyState.of_same (state : before.KeyState originals shard topic key)
    (same : before.SameKey after shard topic key) :
    after.KeyState originals shard topic key :=
  state.transfer same.waits
    (fun empty => ⟨same.unstored.trans empty, same.stored⟩)
    (fun _ carried => carried.of_same same.unstored same.stored) same.recent same.answers
    (List.forall_mem_nil _)

theorem unstoredUnder_of_sameShards (same : before.SameShards after) (shard : ShardIndex)
    (key : String) :
    (after.shards shard).unstoredUnder key = (before.shards shard).unstoredUnder key :=
  congrArg (List.filter _) (unstored_of_sameShards same shard)

theorem unstoredUnder_of_admitted
    (shards :
      after.shards = Function.update before.shards (topicShard input.topic)
          { before.shards (topicShard input.topic) with
            queue := (before.shards (topicShard input.topic)).queue ++ [.enqueue input] }) :
    (after.shards shard).unstoredUnder key = (before.shards shard).unstoredUnder key ++
      if topicShard input.topic = shard ∧ input.idempotencyKey = some key then [input] else [] := by
  rw [WriterShard.unstoredUnder, unstored_of_admitted shards, List.filter_append]
  by_cases here : topicShard input.topic = shard
  · by_cases keyed : input.idempotencyKey = some key
    · simp [here, keyed, WriterShard.unstoredUnder]
    · simp [here, keyed, WriterShard.unstoredUnder]
  · simp [here, WriterShard.unstoredUnder]

theorem waitsUnder_update {moved : Nat} {value : Option Waiting}
    (calls : after.calls = Function.update before.calls moved value)
    (was : ∀ input, ¬ before.WaitsUnder shard key moved input)
    (becomes :
      ∀ input, value = some (.publish input) → topicShard input.topic = shard →
        input.idempotencyKey ≠ some key) (call : Nat) (input : EnqueueInput) :
    after.WaitsUnder shard key call input ↔ before.WaitsUnder shard key call input := by
  unfold WaitsUnder
  rw [calls]
  by_cases same : call = moved
  · subst same
    rw [Function.update_self]
    constructor
    · rintro ⟨waits, sameShard, keyed⟩
      exact absurd keyed (becomes input waits sameShard)
    · exact fun waits => absurd waits (was input)
  · rw [Function.update_of_ne same]

theorem waitsUnder_of_begun {begun : EnqueueInput} (below : before.CallsBelow)
    (calls : after.calls = Function.update before.calls before.fresh (some (.publish begun)))
    (other : ¬ (topicShard begun.topic = shard ∧ begun.idempotencyKey = some key)) (call : Nat)
    (input : EnqueueInput) :
    after.WaitsUnder shard key call input ↔ before.WaitsUnder shard key call input := by
  refine waitsUnder_update calls (fun input waits => ?_) ?_ call input
  · have free := below before.fresh (Nat.le_refl _)
    rw [waits.1] at free
    cases free
  · rintro input same sameShard keyed
    cases same
    exact other ⟨sameShard, keyed⟩

theorem waitsUnder_of_ended {moved : Nat} {ended : EnqueueInput}
    (calls : after.calls = Function.update before.calls moved none)
    (waiting : before.calls moved = some (.publish ended))
    (other : ¬ (topicShard ended.topic = shard ∧ ended.idempotencyKey = some key)) (call : Nat)
    (input : EnqueueInput) :
    after.WaitsUnder shard key call input ↔ before.WaitsUnder shard key call input := by
  refine waitsUnder_update calls (fun input waits => ?_) nofun call input
  have found := waits.1
  rw [waiting] at found
  cases found
  exact other waits.2

theorem waitsUnder_of_calls (calls : after.calls = before.calls) (call : Nat)
    (input : EnqueueInput) :
    after.WaitsUnder shard key call input ↔ before.WaitsUnder shard key call input := by
  unfold WaitsUnder
  rw [calls]

theorem waitsUnder_ended {call other : Nat}
    (calls : after.calls = Function.update before.calls call none)
    (waits : after.WaitsUnder shard key other input) :
    other ≠ call ∧ before.WaitsUnder shard key other input := by
  obtain ⟨found, keyed⟩ := waits
  rw [calls, Function.update_apply] at found
  split at found
  · cases found
  · next different => exact ⟨different, found, keyed⟩

theorem answersUnder_of_receipts (receipts : after.receipts = before.receipts) :
    after.answersUnder topic key = before.answersUnder topic key := by
  rw [answersUnder, receipts]
  rfl

theorem answersUnder_cons_of_other {receipt : Receipt}
    (receipts : after.receipts = receipt :: before.receipts)
    (other : ¬ (receipt.topic = topic ∧ receipt.key = some key)) :
    after.answersUnder topic key = before.answersUnder topic key := by
  rw [answersUnder, receipts, List.filter_cons_of_neg (by simpa using other)]
  rfl

theorem answersUnder_cons_of_same {receipt : Receipt}
    (receipts : after.receipts = receipt :: before.receipts)
    (sameTopic : receipt.topic = topic) (keyed : receipt.key = some key) :
    after.answersUnder topic key = receipt :: before.answersUnder topic key := by
  rw [answersUnder, receipts, List.filter_cons_of_pos (by simp [sameTopic, keyed])]
  rfl

theorem rowsUnder_of_messages (messages : after.db.messages = before.db.messages) :
    after.rowsUnder shard key = before.rowsUnder shard key := by
  rw [rowsUnder, messages]
  rfl

theorem rowsUnder_of_otherStore {changed : ShardIndex} {table : MessageTable}
    (messages : after.db.messages = Function.update before.db.messages (.shard changed) table)
    (other : shard ≠ changed) : after.rowsUnder shard key = before.rowsUnder shard key := by
  rw [rowsUnder, messages, Function.update_of_ne (by simpa using other)]
  rfl

theorem recent_of_sameRecent (same : before.SameRecent after) :
    (after.shards shard).recent.get key = (before.shards shard).recent.get key := by
  rw [same]

theorem recent_forget_of_other
    (other : ¬ (topicShard input.topic = shard ∧ input.idempotencyKey = some key)) :
    ((before.forget input).shards shard).recent.get key = (before.shards shard).recent.get key := by
  unfold forget
  split
  · rfl
  · next name keyed =>
    rw [recent_setShard]
    split
    · next here =>
      have different : key ≠ name := by
        rintro rfl
        exact other ⟨here.symm, keyed⟩
      rw [here]
      exact AList.lookup_erase_ne different
    · rfl

end Frame

/-! ## The transitions of a key -/

section Transitions

variable {before after : Writer} {shard : ShardIndex} {topic key : String}
  {originals : Nat} {input : EnqueueInput}

section

variable (state : before.KeyState originals shard topic key)

include state

/-- A publish that the recent keys do not know: the key is free, since the HTTP path
stored nothing under it. -/
theorem keyState_offered (unseen : (before.shards shard).recent.get key = none)
    (noOriginal :
      ∀ receipt ∈ before.answersUnder topic key, receipt.durable = true → receipt.duplicate = true)
    (sameTopic : input.topic = topic) (sameShard : topicShard input.topic = shard)
    (keyed : input.idempotencyKey = some key)
    (calls : after.calls = Function.update before.calls before.fresh (some (.publish input)))
    (shards : before.SameShards after) (messages : after.db.messages = before.db.messages)
    (receipts : after.receipts = before.receipts)
    (records : (after.shards shard).recent.get key = some input.id) :
    after.KeyState originals shard topic key := by
  cases state with
  | free fresh noCall unstored stored _ answers =>
    refine .offered fresh before.fresh input ⟨?_, sameShard, keyed⟩ sameTopic ?_
      ((unstoredUnder_of_sameShards shards shard key).trans unstored)
      ((rowsUnder_of_messages messages).trans stored) records ?_
    · rw [calls, Function.update_self]
    · intro other later waits
      by_contra different
      refine noCall other later ⟨?_, waits.2⟩
      have found := waits.1
      rw [calls, Function.update_of_ne different] at found
      exact found
    · rw [answersUnder_of_receipts receipts, answers]
      exact fun _ member => nomatch member
  | offered _ _ _ _ _ _ _ _ recent =>
    rw [unseen] at recent
    cases recent
  | accepted _ _ _ recent =>
    rcases recent with recent | ⟨_, receipt, member, durable, original⟩
    · rw [unseen] at recent
      cases recent
    · rw [noOriginal receipt member durable] at original
      cases original

/-- A repeated key that is answered with what the shard has stays in its state. -/
theorem keyState_repeated {receipt : Receipt} (names : before.Names shard key receipt.id)
    (duplicate : receipt.duplicate = true) (sameTopic : receipt.topic = topic)
    (keyed : receipt.key = some key) (calls : after.calls = before.calls)
    (shards : before.SameShards after)
    (stored : after.rowsUnder shard key = before.rowsUnder shard key)
    (recents : before.SameRecent after)
    (receipts : after.receipts = receipt :: before.receipts) :
    after.KeyState originals shard topic key := by
  have unstored := unstoredUnder_of_sameShards shards shard key
  refine state.transfer (waitsUnder_of_calls calls) (fun empty => ⟨unstored.trans empty, stored⟩)
    (fun _ carried => carried.of_same unstored stored) (recent_of_sameRecent recents)
    (show _ = [receipt] ++ _ from answersUnder_cons_of_same receipts sameTopic keyed) ?_
  rintro _ (_ | ⟨_, ⟨⟩⟩)
  exact ⟨duplicate, names⟩

/-- The call that offers a key gets its place, and is told that it was first. -/
theorem keyState_admitted {call : Nat} (waiting : before.WaitsUnder shard key call input)
    (calls : after.calls = Function.update before.calls call none)
    (unstoredEq :
      (after.shards shard).unstoredUnder key = (before.shards shard).unstoredUnder key ++ [input])
    (messages : after.db.messages = before.db.messages) (recents : before.SameRecent after)
    (receipts :
      after.receipts = ⟨input.topic, input.idempotencyKey, input.id, false, false⟩ ::
          before.receipts) :
    after.KeyState originals shard topic key := by
  cases state with
  | free _ noCall | accepted _ noCall => exact absurd waiting (noCall call input)
  | offered fresh _ offer waits sameTopic only unstored stored recent answers =>
    obtain rfl := only call input waiting
    obtain rfl := waits.same_input waiting
    have answersEq := answersUnder_cons_of_same receipts sameTopic waiting.2.2
    refine .accepted input.id (fun other later alsoWaits => ?_) ?_
      (.inl ((recent_of_sameRecent recents).trans recent)) ?_ ?_
    · obtain ⟨different, waited⟩ := waitsUnder_ended calls alsoWaits
      exact different (only other later waited)
    · refine .toStore input ?_ ((rowsUnder_of_messages messages).trans stored) rfl
      rw [unstoredEq, unstored]
      rfl
    · rw [answersEq]
      intro answer member
      rcases List.mem_cons.mp member with rfl | older
      · rfl
      · exact (answers answer older).1
    · have repeats :
          (before.answersUnder topic key).countP (fun receipt => !receipt.duplicate) = 0 := by
        rw [List.countP_eq_zero]
        intro answer older
        simp [(answers answer older).2]
      rw [answersEq, List.countP_cons_of_pos (by rfl), repeats, fresh]

/-- The call that offers a key is refused; its identifier was given to no one. -/
theorem keyState_refused {call : Nat} (waiting : before.WaitsUnder shard key call input)
    (unanswered : ∀ receipt ∈ before.receipts, receipt.id ≠ input.id)
    (calls : after.calls = Function.update before.calls call none)
    (shards : before.SameShards after) (messages : after.db.messages = before.db.messages)
    (forgot : (before.forget input).SameRecent after)
    (receipts : after.receipts = before.receipts) :
    after.KeyState originals shard topic key := by
  cases state with
  | free _ noCall | accepted _ noCall => exact absurd waiting (noCall call input)
  | offered fresh _ offer waits _ only unstored stored _ answers =>
    obtain rfl := only call input waiting
    obtain rfl := waits.same_input waiting
    refine .free fresh (fun other later alsoWaits => ?_)
      ((unstoredUnder_of_sameShards shards shard key).trans unstored)
      ((rowsUnder_of_messages messages).trans stored) ?_ ?_
    · obtain ⟨different, waited⟩ := waitsUnder_ended calls alsoWaits
      exact different (only other later waited)
    · rw [forgot]
      exact recent_forget_self waits.2.1 waits.2.2
    · rw [answersUnder_of_receipts receipts]
      refine List.eq_nil_iff_forall_not_mem.mpr fun answer member => ?_
      exact unanswered answer (List.mem_of_mem_filter member) (answers answer member).1

end

theorem find?_zip (test : EnqueueInput → Bool) {batch : List EnqueueInput} {times : List Nat}
    (timed : times.length = batch.length) :
    ((batch.zip times).find? fun item => test item.1).map Prod.fst = (batch.filter test).head? := by
  have firsts : (batch.zip times).map Prod.fst = batch := List.map_fst_zip (Nat.le_of_eq timed.symm)
  have filtered :
      ((batch.zip times).filter fun item => test item.1).map Prod.fst = batch.filter test := by
    conv_rhs => rw [← firsts, List.filter_map]
    rfl
  rw [← filtered, List.head?_map, List.head?_filter]

/-- A batch is stored: what it has under the key moves to the table. -/
theorem keyState_batchStored {batch : List EnqueueInput} {times : List Nat}
    {results : List (String × Bool)} {table : MessageTable}
    (state : before.KeyState originals shard topic key) (timed : times.length = batch.length)
    (accepted :
      enqueueGroup (batch.zip times) (before.db.messages (.shard shard)) = .ok (results, table))
    (batchEq : (before.shards shard).phase.batch = batch)
    (left : (after.shards shard).unstored = (before.shards shard).queued)
    (calls : after.calls = before.calls) (messages : after.db.messages (.shard shard) = table)
    (recents : before.SameRecent after) (receipts : after.receipts = before.receipts) :
    after.KeyState originals shard topic key := by
  have split : (before.shards shard).unstoredUnder key =
      (batch.filter fun input => input.idempotencyKey = some key) ++
        (after.shards shard).unstoredUnder key := by
    rw [WriterShard.unstoredUnder, WriterShard.unstoredUnder, left, ← batchEq,
      WriterShard.unstored, List.filter_append]
  have first := find?_zip (fun input => decide (input.idempotencyKey = some key)) timed
  have rows : after.rowsUnder shard key =
      if before.rowsUnder shard key = [] then
        (((batch.zip times).find? fun item =>
            item.1.idempotencyKey = some key).map
          fun item => (item.1.row item.2).toMessage).toList
      else
        before.rowsUnder shard key := by
    rw [rowsUnder, messages]
    exact enqueueGroup_storedUnder key accepted
  -- Nothing under the key was to be stored, so the batch adds nothing under it.
  have nothing (unstored : (before.shards shard).unstoredUnder key = []) :
      (after.shards shard).unstoredUnder key = [] ∧
        after.rowsUnder shard key = before.rowsUnder shard key := by
    rw [unstored] at split
    obtain ⟨noneInBatch, noneLeft⟩ := List.append_eq_nil_iff.mp split.symm
    refine ⟨noneLeft, ?_⟩
    rw [noneInBatch, List.head?_nil, Option.map_eq_none_iff] at first
    rw [rows, first]
    by_cases absent : before.rowsUnder shard key = []
    · simp [absent]
    · simp [absent]
  refine state.transfer (waitsUnder_of_calls calls) nothing (fun id carried => ?_)
    (recent_of_sameRecent recents) (answersUnder_of_receipts receipts) (List.forall_mem_nil _)
  cases carried with
  | stored message unstored oneRow sameId =>
    obtain ⟨noneLeft, sameRows⟩ := nothing unstored
    exact .stored message noneLeft (sameRows.trans oneRow) sameId
  | toStore input unstored noRow sameId =>
    rw [unstored] at split
    rcases List.append_eq_singleton_iff.mp split.symm with
      ⟨noneInBatch, stillLeft⟩ | ⟨inBatch, noneLeft⟩
    · rw [noneInBatch, List.head?_nil, Option.map_eq_none_iff] at first
      refine .toStore input stillLeft ?_ sameId
      rw [rows, if_pos noRow, first]
      rfl
    · rw [inBatch, List.head?_cons] at first
      obtain ⟨⟨found, time⟩, foundEq, rfl⟩ := Option.map_eq_some_iff.mp first
      refine .stored (found.row time).toMessage noneLeft ?_ sameId
      rw [rows, if_pos noRow, foundEq]
      rfl

/-- A message is stored directly under a key with nothing on its way. -/
theorem keyState_storedDirectly {now : Nat} {id : String} {duplicate : Bool}
    {table : MessageTable} (state : before.KeyState originals shard topic key)
    (accepted :
      enqueueItem input now (before.db.messages (.shard shard)) = .ok ((id, duplicate), table))
    (sameTopic : input.topic = topic) (keyed : input.idempotencyKey = some key)
    (noCall : ∀ call input, ¬ before.WaitsUnder shard key call input)
    (unstored : (before.shards shard).unstoredUnder key = [])
    (calls : after.calls = before.calls) (shards : before.SameShards after)
    (messages : after.db.messages (.shard shard) = table) (recents : before.SameRecent after)
    (receipts :
      after.receipts = ⟨input.topic, input.idempotencyKey, id, duplicate, true⟩ ::
          before.receipts) :
    after.KeyState originals shard topic key := by
  rcases enqueueItem_sameKey accepted keyed with
    ⟨absent, result, added⟩ | ⟨rfl, message, member, result⟩
  · cases result
    cases state with
    | offered _ call other waits => exact absurd waits (noCall call other)
    | accepted _ _ carried =>
      cases carried with
      | toStore _ one =>
        rw [unstored] at one
        cases one
      | stored _ _ one =>
        rw [rowsUnder, absent] at one
        cases one
    | free fresh _ _ _ recent answers =>
      have answersEq := answersUnder_cons_of_same receipts sameTopic keyed
      rw [answers] at answersEq
      refine .accepted input.id (fun call other waits => ?_) ?_ ?_ ?_ ?_
      · exact noCall call other ((waitsUnder_of_calls calls call other).mp waits)
      · refine
          .stored (input.row now).toMessage
            ((unstoredUnder_of_sameShards shards shard key).trans unstored) ?_ rfl
        rw [rowsUnder, messages]
        exact added
      · rw [answersEq]
        exact .inr ⟨(recent_of_sameRecent recents).trans recent, _, .head _, rfl, rfl⟩
      · rw [answersEq]
        intro answer member
        rw [List.mem_singleton.mp member]
      · rw [answersEq, fresh]
        rfl
  · cases result
    refine keyState_repeated state (.inr ⟨message, member, rfl⟩) rfl sameTopic keyed calls
      shards ?_ recents receipts
    rw [rowsUnder, messages]
    rfl

end Transitions

/-! ## One step -/

/-- An action that stores nothing and removes nothing under a key keeps the messages under
it. -/
theorem storedUnder_of_effect {before after : Database} {request : Action}
    {answer : Reply request} (effect : Effect before request answer after)
    (storesNothing : request.storesMessages = false) {store : Store} {key : String}
    (spares :
      ∀ removal, request = .sql (.remove store removal) →
        ∀ row ∈ (before.messages store).rows,
          row.idempotencyKey = some key → removal.guard row = false) :
    storedUnder key (after.messages store) = storedUnder key (before.messages store) := by
  rcases effect.messages_cases store with same | written
  · rw [same]
  · generalize after.messages store = table at written
    cases written with
    | updated statement picked =>
      rw [storedUnder, storedUnder, Update.execute_rows, List.map_map]
      refine congrArg _ (List.map_congr_left fun row _ => ?_)
      exact Update.rewrite_toMessage picked statement row
    | delivered =>
      rw [storedUnder, storedUnder, deliverGroup_rows, List.map_map]
      refine congrArg _ (List.map_congr_left fun row _ => ?_)
      simp only [Function.comp_apply]
      split <;> rfl
    | enqueued | copied => cases storesNothing
    | removed removal =>
      rw [storedUnder, storedUnder, Table.delete, List.filter_map, List.filter_map,
        List.filter_filter]
      refine congrArg _ (List.filter_congr fun row member => ?_)
      have spared := spares removal rfl row member
      simp only [Function.comp_apply]
      grind

section Step

variable {before after : Writer} {shard : ShardIndex}

/-- A publish under another key, or to another shard, keeps what the recent keys have. -/
theorem recent_of_records {topic key name id : String} {keyText : Option String}
    (recents : before.Records after (topicShard name) id keyText)
    (apart :
      topicShard name = topicShard topic → ∀ used, keyText = some used →
        before.PublishesApart topic key used name id)
    (other : ¬ (topicShard name = topicShard topic ∧ keyText = some key)) :
    (after.shards (topicShard topic)).recent.get key =
      (before.shards (topicShard topic)).recent.get key := by
  cases keyText with
  | none => exact recent_of_sameRecent recents
  | some used =>
    obtain ⟨recent, inserted, recents⟩ := recents
    rw [recents]
    split
    · next here =>
      refine (apart here.symm used rfl).2 ?_ recent (here ▸ inserted)
      exact fun same => other ⟨here.symm, congrArg some same⟩
    · rfl

/-- Every step that leaves the key undisturbed keeps its state. -/
theorem keyState_step {event : WriterEvent} {topic key : String} {originals : Nat}
    (wellFormed : before.WellFormed) (drains : before.Drains)
    (state : before.KeyState originals (topicShard topic) topic key)
    (undisturbed : before.Undisturbed topic key event)
    (effect : WriterEffect before after event) :
    after.KeyState originals (topicShard topic) topic key := by
  cases effect with
  | offered keyText name _ _ uuid unseen calls shards messages logs recents =>
    by_cases mine :
      topicShard name = topicShard topic ∧ keyText.filter (· ≠ "") = some key
    · obtain ⟨here, keyed⟩ := mine
      obtain ⟨rfl, noOriginal⟩ := (undisturbed here key keyed).1 rfl
      refine keyState_offered state (unseen key keyed) noOriginal rfl rfl keyed calls shards
        messages logs.receipts ?_
      rw [keyed] at recents
      obtain ⟨recent, inserted, recents⟩ := recents
      rw [recents, if_pos rfl]
      exact RecentIds.get_insert_self inserted
    · exact
        state.of_same
          ⟨waitsUnder_of_begun wellFormed.below calls mine,
            unstoredUnder_of_sameShards shards _ key, rowsUnder_of_messages messages,
            recent_of_records recents undisturbed mine, answersUnder_of_receipts logs.receipts⟩
  | repeated _ topicName _ _ _ name _ keyed found calls shards messages receipts _ _ recents =>
      by_cases mine : topicShard topicName = topicShard topic ∧ name = key
      · obtain ⟨here, rfl⟩ := mine
        obtain ⟨rfl, _⟩ := (undisturbed here name keyed).1 rfl
        exact keyState_repeated state (.inl found) rfl rfl rfl calls shards
          (rowsUnder_of_messages messages) recents receipts
      · refine
          state.of_same
            ⟨waitsUnder_of_calls calls, unstoredUnder_of_sameShards shards _ key,
              rowsUnder_of_messages messages, recent_of_sameRecent recents,
              answersUnder_cons_of_other receipts ?_⟩
        rintro ⟨sameTopic, sameKey⟩
        exact mine ⟨congrArg topicShard sameTopic, Option.some.inj sameKey⟩
  | admitted _ input waiting calls shards _ messages receipts =>
      have recents : before.SameRecent after := sameRecent_of_update shards rfl
      by_cases mine :
        topicShard input.topic = topicShard topic ∧ input.idempotencyKey = some key
      · refine keyState_admitted state ⟨waiting, mine⟩ calls ?_ messages recents receipts
        rw [unstoredUnder_of_admitted shards, if_pos mine]
      · refine
          state.of_same
            ⟨waitsUnder_of_ended calls waiting mine, ?_,
              rowsUnder_of_messages messages, recent_of_sameRecent recents,
              answersUnder_cons_of_other receipts fun same =>
                mine ⟨congrArg topicShard same.1, same.2⟩⟩
        rw [unstoredUnder_of_admitted shards, if_neg mine, List.append_nil]
  | withdrawn _ call input _ waiting calls shards messages logs recents =>
    by_cases mine :
      topicShard input.topic = topicShard topic ∧ input.idempotencyKey = some key
    · rcases recents with ⟨rfl, _⟩ | ⟨rfl, forgot⟩
      · exact absurd ⟨waiting, mine⟩ (undisturbed input)
      · exact
          keyState_refused state ⟨waiting, mine⟩ (undisturbed input ⟨waiting, mine⟩) calls
            shards messages forgot logs.receipts
    · refine
        state.of_same
          ⟨waitsUnder_of_ended calls waiting mine, unstoredUnder_of_sameShards shards _ key,
            rowsUnder_of_messages messages, ?_, answersUnder_of_receipts logs.receipts⟩
      rcases recents with ⟨_, same⟩ | ⟨_, forgot⟩
      · exact recent_of_sameRecent same
      · exact (recent_of_sameRecent forgot).trans (recent_forget_of_other mine)
  | settled _ offers queues messages logs recents =>
    refine state.of_same
      ⟨fun call input => ?_, ?_, rowsUnder_of_messages messages,
        recent_of_sameRecent recents, answersUnder_of_receipts logs.receipts⟩
    · unfold WaitsUnder
      rw [offers call input]
    · obtain ⟨phase, extra, noInput, queue⟩ := queues (topicShard topic)
      rw [WriterShard.unstoredUnder, WriterShard.unstored, WriterShard.queued,
        queue, phase, List.filterMap_append, noInput, List.append_nil]
      rfl
  | moved _ changed _ same move _ recent =>
    subst same
    refine state.of_same
      ⟨fun _ _ => Iff.rfl, ?_, rfl, recent_of_sameRecent (sameRecent_of_update rfl recent), rfl⟩
    by_cases here : topicShard topic = changed
    · subst here
      simp only [setShard, Function.update_self]
      exact congrArg (List.filter _) (WriterShard.unstored_eq_of_move (drains.shards _) move)
    · simp only [setShard, Function.update_of_ne here]
  | batchStored _ changed _ acks stop _ _ _ phase timed accepted calls shards messages receipts =>
      have recents : before.SameRecent after :=
        sameRecent_of_update shards (WriterShard.turnToAcks_kept _ acks stop).2
      by_cases here : topicShard topic = changed
      · subst here
        refine keyState_batchStored state timed accepted ?_ ?_ calls ?_ recents receipts
        · rw [phase]
          rfl
        · rw [shards, Function.update_self]
          exact unstored_turnToAcks (drains.shards _) phase
        · rw [messages, Function.update_self]
      · refine state.of_same
          ⟨waitsUnder_of_calls calls, ?_, rowsUnder_of_otherStore messages here,
            recent_of_sameRecent recents, answersUnder_of_receipts receipts⟩
        rw [shards, Function.update_of_ne here]
  | storedDirectly keyText name _ _ _ _ _ _ _ _ accepted calls shards messages receipts _ _
      recents =>
      by_cases mine :
        topicShard name = topicShard topic ∧ keyText.filter (· ≠ "") = some key
      · obtain ⟨rfl, noCall, unstored⟩ := undisturbed mine.1 mine.2
        refine keyState_storedDirectly state accepted rfl mine.2 noCall unstored
          calls shards ?_ recents receipts
        rw [messages, Function.update_self]
      · refine
          state.of_same
            ⟨waitsUnder_of_calls calls, unstoredUnder_of_sameShards shards _ key, ?_,
              recent_of_sameRecent recents, answersUnder_cons_of_other receipts fun same =>
                mine ⟨congrArg topicShard same.1, same.2⟩⟩
        by_cases here : topicShard topic = topicShard name
        · rw [rowsUnder, messages, here, Function.update_self]
          exact enqueueItem_otherKey accepted fun keyed => mine ⟨here.symm, keyed⟩
        · exact rowsUnder_of_otherStore messages here
  | acted _ request _ effect storesNothing origin calls shards _ logs recents =>
    refine state.of_same
      ⟨waitsUnder_of_calls calls, ?_, storedUnder_of_effect effect storesNothing ?_,
        recent_of_sameRecent recents, answersUnder_of_receipts logs.receipts⟩
    · obtain ⟨queue, batch, _, _⟩ := shards (topicShard topic)
      exact congrArg (List.filter _) (WriterShard.unstored_of_eq queue batch)
    · rcases origin with ⟨choice, rfl⟩ | keeps
      · exact undisturbed
      · exact fun removal same => absurd same (keeps _ removal)

end Step

/-! ## Whole runs -/

/-- How many publishes under a key are told that they were first. -/
def originalsFrom (db : Database) (shard : ShardIndex) (key : String) : Nat :=
  if storedUnder key (db.messages (.shard shard)) = [] then 1 else 0

variable {writer : Writer} {shard : ShardIndex} {topic key : String} {originals : Nat}

theorem keyState_start {limits : Limits} {db : Database} {order : ShardIndex → List String}
    (started : start limits db order = some writer)
    (known :
      ∀ row ∈ (db.messages (.shard shard)).rows, row.idempotencyKey = some key →
        (writer.shards shard).recent.get key = some row.id) :
    writer.KeyState (originalsFrom db shard key) shard topic key := by
  have unrecorded (absent : storedUnder key (db.messages (.shard shard)) = []) :
      (writer.shards shard).recent.get key = none := by
    rw [Option.eq_none_iff_forall_ne_some]
    intro id shown
    obtain ⟨row, member, keyed, _⟩ := row_of_start started shown
    have listed := mem_storedUnder.mpr ⟨row, member, rfl, keyed⟩
    rw [absent] at listed
    cases listed
  have noCall : ∀ call input, ¬ writer.WaitsUnder shard key call input := by
    unfold start at started
    split at started <;> cases started
    rintro call input ⟨⟨⟩, _⟩
  have answers : writer.answersUnder topic key = [] := by
    unfold start at started
    split at started <;> cases started
    rfl
  have unstored : (writer.shards shard).unstoredUnder key = [] := by
    unfold start at started
    split at started <;> cases started
    rfl
  have stored : writer.rowsUnder shard key = storedUnder key (db.messages (.shard shard)) := by
    unfold start at started
    split at started <;> cases started
    rfl
  rcases storedUnder_cases key (db.messages (.shard shard)) with absent | ⟨message, present⟩
  · exact .free (if_pos absent) noCall unstored (stored.trans absent) (unrecorded absent) answers
  · have listed : message ∈ storedUnder key (db.messages (.shard shard)) := by
      rw [present]
      exact .head _
    obtain ⟨row, member, rfl, keyed⟩ := mem_storedUnder.mp listed
    refine .accepted row.id noCall (.stored _ unstored (stored.trans present) rfl)
      (.inl (known row member keyed)) ?_ ?_
    · rw [answers]
      exact fun _ member => nomatch member
    · simp [originalsFrom, present, answers]

/-- The key is in one of its states, and no accepted message can be lost. -/
structure Tracks (writer : Writer) (db : Database) (topic key : String) : Prop where
  drains : writer.Drains
  state : writer.KeyState (originalsFrom db (topicShard topic) key) (topicShard topic) topic key

theorem tracks_step {before after : Writer} {event : WriterEvent} {db : Database}
    (wellFormed : before.WellFormed) (tracks : before.Tracks db topic key)
    (met : before.AdmitsBeforeShutdown event ∧ before.Undisturbed topic key event)
    (effect : WriterEffect before after event) : after.Tracks db topic key where
  drains := drains_step tracks.drains met.1 effect
  state := keyState_step wellFormed tracks.drains tracks.state met.2 effect

theorem KeyState.sameId (state : writer.KeyState originals shard topic key) {first second : Receipt}
    (firstListed : first ∈ writer.answersUnder topic key)
    (secondListed : second ∈ writer.answersUnder topic key) :
    first.id = second.id := by
  cases state with
  | free _ _ _ _ _ answers =>
    rw [answers] at firstListed
    cases firstListed
  | offered _ _ _ _ _ _ _ _ _ answers =>
    exact (answers first firstListed).1.trans (answers second secondListed).1.symm
  | accepted _ _ _ _ answers =>
    exact (answers first firstListed).trans (answers second secondListed).symm

theorem KeyState.count_le (state : writer.KeyState originals shard topic key) :
    (writer.answersUnder topic key).countP (fun receipt => !receipt.duplicate) ≤ originals := by
  cases state with
  | free _ _ _ _ _ answers =>
    rw [answers]
    exact Nat.zero_le _
  | offered _ _ _ _ _ _ _ _ _ answers =>
    refine le_of_eq_of_le (List.countP_eq_zero.mpr fun receipt member => ?_) (Nat.zero_le _)
    simp [(answers receipt member).2]
  | accepted _ _ _ _ _ once => exact Nat.le_of_eq once

/-- Once no publish under the key waits, the answers hold as many originals as they
should; and once nothing under it is to be stored, the one stored row is what every answer
names. -/
theorem KeyState.returned (state : writer.KeyState originals shard topic key)
    (noCall : ∀ call input, ¬ writer.WaitsUnder shard key call input) {some : Receipt}
    (listed : some ∈ writer.answersUnder topic key) :
    (writer.answersUnder topic key).countP (fun receipt => !receipt.duplicate) = originals ∧
      ((writer.shards shard).unstoredUnder key = [] → ∃ message,
        writer.rowsUnder shard key = [message] ∧
          ∀ receipt ∈ writer.answersUnder topic key, receipt.id = message.id) := by
  cases state with
  | free _ _ _ _ _ answers =>
    rw [answers] at listed
    cases listed
  | offered _ call input waits => exact absurd waits (noCall call input)
  | accepted _ _ carried _ answers once =>
    refine ⟨once, fun unstored => ?_⟩
    cases carried with
    | toStore _ left =>
      rw [unstored] at left
      cases left
    | stored message _ stored sameId =>
      exact ⟨message, stored, fun receipt member => (answers receipt member).trans sameId.symm⟩

/-- **One message under a key.**  In every run that leaves the key of a topic undisturbed
and admits no publish after a `Shutdown`, from a state in which the recent keys have the
key if it is stored: all publishes of the topic under the key are told one identifier, at
most one is told that it was the first, and exactly one as soon as no publish under the key
waits, if the key was not stored from the start; and when the queue has drained, the
identifier is that of the one row under the key. -/
theorem originalId_returned (limits : Limits) (db : Database) (order : ShardIndex → List String)
    (initial final : Writer) (events : List WriterEvent) (topic key : String)
    (started : start limits db order = some initial)
    (known :
      ∀ row ∈ (db.messages (.shard (topicShard topic))).rows, row.idempotencyKey = some key →
        (initial.shards (topicShard topic)).recent.get key = some row.id)
    (along :
      Along (step limits)
        (fun writer event =>
          writer.AdmitsBeforeShutdown event ∧ writer.Undisturbed topic key event)
        initial events)
    (ran : initial.replay limits events = some final) :
    (∀ first ∈ final.receipts, ∀ second ∈ final.receipts,
      first.topic = topic → first.key = some key →
        second.topic = topic → second.key = some key → first.id = second.id) ∧
      final.receipts.countP (fun receipt =>
          receipt.topic = topic ∧ receipt.key = some key ∧ receipt.duplicate = false) ≤
        originalsFrom db (topicShard topic) key ∧
      ((∀ call input, ¬ final.WaitsUnder (topicShard topic) key call input) →
        (∃ receipt ∈ final.receipts, receipt.topic = topic ∧ receipt.key = some key) →
          final.receipts.countP (fun receipt =>
              receipt.topic = topic ∧ receipt.key = some key ∧ receipt.duplicate = false) =
            originalsFrom db (topicShard topic) key ∧
          ((final.shards (topicShard topic)).unstoredUnder key = [] → ∃ message,
            storedUnder key (final.db.messages (.shard (topicShard topic))) = [message] ∧
              ∀ receipt ∈ final.receipts,
                receipt.topic = topic → receipt.key = some key → receipt.id = message.id)) := by
  have tracked : final.Tracks db topic key :=
    replay_invariant (fun wellFormed held met effect => tracks_step wellFormed held met effect)
      started ⟨drains_start started, keyState_start started known⟩ along ran
  have state := tracked.state
  have listed {receipt : Receipt} (member : receipt ∈ final.receipts)
      (sameTopic : receipt.topic = topic) (keyed : receipt.key = some key) :
      receipt ∈ final.answersUnder topic key := by
    simp [answersUnder, member, sameTopic, keyed]
  have counted : final.receipts.countP (fun receipt =>
      receipt.topic = topic ∧ receipt.key = some key ∧ receipt.duplicate = false) =
      (final.answersUnder topic key).countP fun receipt => !receipt.duplicate := by
    rw [answersUnder, List.countP_filter]
    refine List.countP_congr fun receipt _ => ?_
    simp only [Bool.and_eq_true, decide_eq_true_eq, Bool.not_eq_true']
    tauto
  rw [counted]
  refine ⟨?_, state.count_le, ?_⟩
  · intro first firstListed second secondListed firstTopic firstKey secondTopic secondKey
    exact state.sameId (listed firstListed firstTopic firstKey)
      (listed secondListed secondTopic secondKey)
  · rintro noCall ⟨answer, member, sameTopic, keyed⟩
    obtain ⟨count, drained⟩ := state.returned noCall (listed member sameTopic keyed)
    refine ⟨count, fun unstored => ?_⟩
    obtain ⟨message, stored, same⟩ := drained unstored
    exact ⟨message, stored, fun receipt old here keyedToo =>
      same receipt (listed old here keyedToo)⟩

/-- One key published twice over the queue writer and once, when the message is stored,
over the HTTP path; in between a publish under another key is dropped, and one over the
HTTP path is stored and removed. -/
def publishedThrice : List WriterEvent :=
  [.publish (some "k") "jobs" [104, 105] "{}" "u1", .accept 0,
    .publish (some "k") "jobs" [104, 105] "{}" "u2",
    .publish (some "z") "jobs" [106] "{}" "u3", .cancel 1, .receive 13, .close 13,
    .persist 13 [5] {}, .store (some "z") "jobs" [106] "{}" "u4" 6 false,
    .other (.sql (.remove (.shard 13) (.ofId (newMessageId "jobs" "u4")))) {},
    .store (some "k") "jobs" [104, 105] "{}" "u5" 7 false]

def noneWaits (writer : Writer) (shard : ShardIndex) (key : String) : Bool :=
  (List.range writer.fresh).all fun call =>
    match writer.calls call with
    | some (.publish input) =>
      decide (¬ (topicShard input.topic = shard ∧ input.idempotencyKey = some key))
    | _ => true

theorem not_waitsUnder_of_noneWaits
    (below : writer.CallsBelow) (checked : noneWaits writer shard key = true) (call : Nat)
    (input : EnqueueInput) :
    ¬ writer.WaitsUnder shard key call input := by
  rintro ⟨waits, sameKey⟩
  have used : call < writer.fresh := by
    by_contra beyond
    rw [below call (Nat.not_lt.mp beyond)] at waits
    cases waits
  have tested := List.all_eq_true.mp checked call (List.mem_range.mpr used)
  rw [waits] at tested
  exact of_decide_eq_true tested sameKey

/-- Publishes are apart, nothing under the key waits where a call ends or a message is
stored directly, and a `DELETE` spares the key. -/
def undisturbedCheck (topic key : String) (writer : Writer) : WriterEvent → Bool
  | .publish keyText name _ _ uuid =>
    (keyText.filter (· ≠ "")).all fun used =>
      decide (writer.PublishesApart topic key used name (newMessageId name uuid))
  | .store keyText name _ _ _ _ _ =>
    decide (keyText.filter (· ≠ "") ≠ some key) ||
      (decide (name = topic) && noneWaits writer (topicShard topic) key &&
        decide ((writer.shards (topicShard topic)).unstoredUnder key = []))
  | .refuse call | .cancel call =>
    match writer.calls call with
    | some (.publish input) => decide (input.idempotencyKey ≠ some key)
    | _ => true
  | .other (.sql (.remove _ removal)) _ =>
    (writer.db.messages (.shard (topicShard topic))).rows.all fun row =>
      decide (row.idempotencyKey = some key → removal.guard row = false)
  | _ => true

theorem undisturbed_of_check (event : WriterEvent) (below : writer.CallsBelow)
    (checked : undisturbedCheck topic key writer event = true) :
    writer.Undisturbed topic key event := by
  cases event with
  | publish =>
    intro _ used keyed
    simpa only [undisturbedCheck, keyed, Option.all_some, decide_eq_true_eq] using checked
  | store =>
    intro _ keyed
    simp only [undisturbedCheck, keyed, ne_eq, not_true_eq_false, decide_false, Bool.false_or,
      Bool.and_eq_true, decide_eq_true_eq] at checked
    exact ⟨checked.1.1, not_waitsUnder_of_noneWaits below checked.1.2, checked.2⟩
  | refuse | cancel =>
    intro input waits
    simp only [undisturbedCheck, waits.1, waits.2.2, ne_eq, not_true_eq_false,
      decide_false] at checked
    cases checked
  | other =>
    rintro removal rfl row member
    have spared := List.all_eq_true.mp checked row member
    exact of_decide_eq_true spared
  | _ => exact trivial

theorem originalId_returned_publishedThrice : ∃ initial final,
    start (Limits.perShard 16 1) Database.empty (fun _ => []) = some initial ∧
      initial.replay (Limits.perShard 16 1) publishedThrice = some final ∧
      final.receipts.countP (fun receipt => receipt.key = some "k") = 3 ∧
      final.receipts.countP (fun receipt =>
          receipt.topic = "jobs" ∧ receipt.key = some "k" ∧ receipt.duplicate = false) =
        originalsFrom Database.empty (topicShard "jobs") "k" ∧
      ∃ message, storedUnder "k" (final.db.messages (.shard (topicShard "jobs"))) = [message] ∧
        ∀ receipt ∈ final.receipts,
          receipt.topic = "jobs" → receipt.key = some "k" → receipt.id = message.id := by
  obtain ⟨initial, final, started, ran, checked, ended, drained, three, answered⟩ :
      ∃ initial final,
        start (Limits.perShard 16 1) Database.empty (fun _ => []) = some initial ∧
          initial.replay (Limits.perShard 16 1) publishedThrice = some final ∧
          checkAlong (step (Limits.perShard 16 1))
            (fun writer event =>
              admitsBeforeShutdownCheck writer event && undisturbedCheck "jobs" "k" writer event)
            initial publishedThrice = true ∧
          (∀ call < final.fresh, final.calls call = none) ∧
          (final.shards (topicShard "jobs")).unstoredUnder "k" = [] ∧
          final.receipts.countP (fun receipt => receipt.key = some "k") = 3 ∧
          ∃ receipt ∈ final.receipts, receipt.topic = "jobs" ∧ receipt.key = some "k" :=
    exists_run_of_check (by decide +kernel)
  have along : Along (step (Limits.perShard 16 1))
      (fun writer event =>
        writer.AdmitsBeforeShutdown event ∧ writer.Undisturbed "jobs" "k" event)
      initial publishedThrice := by
    refine along_of_check_of_invariant
      (fun held stepped => wellFormed_step held stepped) ?_
      (wellFormed_start started) checked
    intro writer event wellFormed both
    rw [Bool.and_eq_true] at both
    exact ⟨admitsBeforeShutdown_of_check writer event both.1,
      undisturbed_of_check event wellFormed.below both.2⟩
  have quiescent := quiescent_of_fresh started ran ended
  have noCall : ∀ call input, ¬ final.WaitsUnder (topicShard "jobs") "k" call input := by
    rintro call input ⟨waits, _⟩
    rw [quiescent call] at waits
    cases waits
  obtain ⟨count, stored⟩ :=
    (originalId_returned _ _ _ _ _ _ "jobs" "k" started
      (fun _ member => nomatch member) along ran).2.2 noCall answered
  exact ⟨initial, final, started, ran, three, count, stored drained⟩

/-- A key stored over the HTTP path, then published over the queue writer, which
does not know it. -/
def storedThenPublished : List WriterEvent :=
  [.store (some "k") "jobs" [104, 105] "{}" "u1" 4 false,
    .publish (some "k") "jobs" [104, 105] "{}" "u2", .accept 0, .receive 13,
    .close 13, .persist 13 [5] {}]

/-- Both publishes were told that they were first, with two identifiers, and only
one of them is stored. -/
theorem originalId_forgotten : ∃ initial final,
    start (Limits.perShard 16 1) Database.empty (fun _ => []) = some initial ∧
      initial.replay (Limits.perShard 16 1) storedThenPublished = some final ∧
      final.Quiescent ∧ (∀ shard, (final.shards shard).unstored = []) ∧
      ∃ first ∈ final.receipts, ∃ second ∈ final.receipts,
        first.topic = second.topic ∧ first.key = some "k" ∧
          second.key = some "k" ∧ first.duplicate = false ∧
          second.duplicate = false ∧ first.id ≠ second.id ∧
          ∀ row ∈ (final.db.messages (.shard (topicShard first.topic))).rows, row.id ≠ first.id :=
  exists_quiescent_of_check (by decide +kernel)

end Writer

end CanglingBroker
