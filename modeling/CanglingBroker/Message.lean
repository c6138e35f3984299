import CanglingBroker.Foundation.Table
import CanglingBroker.Config

/-!
# Stored messages and the statements on them

One shard holds one table of messages, unique by identifier and, when present, by
idempotency key.  An `UPDATE` is a guard and a `SET` list, which rewrites the delivery
columns only.  A choice that a statement leaves open is an argument together with a
predicate that says which choices the statement admits.
-/

namespace CanglingBroker

open Foundation

/-- The columns a message keeps from its acceptance on. -/
structure Message where
  id : String
  idempotencyKey : Option String
  topic : String
  payload : List UInt8
  attributes : String
  createdAt : Nat
  deriving DecidableEq, Repr

inductive Status where
  | pending
  | processing
  | delivered
  | failed
  | dropped
  deriving DecidableEq, Repr

def Status.Final : Status → Prop
  | .pending | .processing => False
  | .delivered | .failed | .dropped => True

/-- A row of `messages`. -/
structure MessageRow extends Message where
  status : Status
  attempts : Int
  nextAttemptAt : Nat
  lastError : Option String
  deliveredAt : Option Nat
  lease : Option String
  deriving DecidableEq, Repr

/-- The `messages` table of one database file. -/
abbrev MessageTable : Type :=
  Table (fun row : MessageRow => row.id) (fun row : MessageRow => row.idempotencyKey)

namespace MessageRow

/-- The row is claimed under this lease: the guard of every statement that
presents a lease. -/
def held (id lease : String) (row : MessageRow) : Bool :=
  row.id = id && row.lease = some lease && row.status = .processing

def ready (now : Nat) (row : MessageRow) : Bool :=
  row.status = .pending && row.nextAttemptAt ≤ now

theorem held_iff {id lease : String} {row : MessageRow} :
    row.held id lease = true ↔ row.id = id ∧ row.lease = some lease ∧ row.status = .processing := by
  simp [held, and_assoc]

end MessageRow

/-! ## Updates -/

/-- The `UPDATE` statements, with their bound values. -/
inductive Update where
  | dropPending (topic : String)
  | dropClaimed (error id lease : String)
  | reclaim (now : Nat)
  | claimBatch (lease : String) (visibleAgain now : Nat) (topic : String) (limit : Nat)
  | claimOne (lease : String) (visibleAgain : Nat) (id : String)
  | release (now : Nat) (id lease : String)
  | renew (visibleAgain : Nat) (id lease : String) (now : Nat)
  | deliver (now : Nat) (id lease : String)
  | fail (status : Status) (nextAttemptAt : Nat) (error id lease : String)
  | recover
  deriving DecidableEq, Repr

/-- The rows the inner `SELECT … ORDER BY created_at LIMIT ?` may keep. -/
def Picks (candidates : List MessageRow) (limit : Nat) (picked : List String) : Prop :=
  picked.Nodup ∧ picked.length = min limit candidates.length ∧
    (∀ id ∈ picked, ∃ row ∈ candidates, row.id = id) ∧
    ∀ kept ∈ candidates, ∀ left ∈ candidates,
      kept.id ∈ picked → left.id ∉ picked → kept.createdAt ≤ left.createdAt

instance (candidates : List MessageRow) (limit : Nat) (picked : List String) :
    Decidable (Picks candidates limit picked) :=
  inferInstanceAs (Decidable (_ ∧ _ ∧ _ ∧ _))

namespace Update

/-- The rows an `UPDATE` applies to.  `picked` is the outcome of the inner
`SELECT` of a batch claim. -/
def guard (picked : List String) : Update → MessageRow → Bool
  | .dropPending topic, row => row.topic = topic && row.status = .pending
  | .dropClaimed _ id lease, row => row.held id lease
  | .reclaim now, row => row.status = .processing && row.nextAttemptAt ≤ now
  | .claimBatch .., row => row.id ∈ picked && row.status = .pending
  | .claimOne _ _ id, row => row.id = id && row.status = .pending
  | .release _ id lease, row => row.held id lease
  | .renew _ id lease now, row => row.held id lease && now < row.nextAttemptAt
  | .deliver _ id lease, row => row.held id lease
  | .fail _ _ _ id lease, row => row.held id lease
  | .recover, row => row.status = .processing

/-- The `SET` list of an `UPDATE`. -/
def set : Update → MessageRow → MessageRow
  | .dropPending _, row =>
    { row with
      status := .dropped
      lastError := some "no live subscriber"
      lease := none }
  | .dropClaimed error _ _, row =>
    { row with status := .dropped, lastError := some error, lease := none }
  | .reclaim _, row => { row with status := .pending, lease := none }
  | .claimBatch lease visibleAgain _ _ _, row =>
    { row with
      status := .processing
      attempts := row.attempts + 1
      lease := some lease
      nextAttemptAt := visibleAgain }
  | .claimOne lease visibleAgain _, row =>
    { row with
      status := .processing
      attempts := row.attempts + 1
      lease := some lease
      nextAttemptAt := visibleAgain }
  | .release now _ _, row => { row with status := .pending, lease := none, nextAttemptAt := now }
  | .renew visibleAgain _ _ _, row => { row with nextAttemptAt := visibleAgain }
  | .deliver now _ _, row =>
    { row with
      status := .delivered
      deliveredAt := some now
      lastError := none
      lease := none }
  | .fail status nextAttemptAt error _ _, row =>
    { row with
      status := status
      nextAttemptAt := nextAttemptAt
      lastError := some error
      lease := none }
  | .recover, row => { row with status := .pending, lease := none }

@[simp]
theorem set_toMessage (update : Update) (row : MessageRow) :
    (update.set row).toMessage = row.toMessage := by
  cases update <;> rfl

/-- The `SET` list with the proof that it leaves the keys alone. -/
def assignment (update : Update) :
    Assignment
      (fun row : MessageRow => row.id)
      (fun row : MessageRow => row.idempotencyKey) where
  set := update.set
  keepsPrimary := fun row => congrArg Message.id (update.set_toMessage row)
  keepsAlternate := fun row =>
    congrArg Message.idempotencyKey (update.set_toMessage row)

/-- The choices of `picked` the statement admits. -/
def Admits (table : MessageTable) (picked : List String) : Update → Prop
  | .claimBatch _ _ now topic limit =>
    Picks
      (table.rows.filter fun row => row.ready now && row.topic = topic)
      limit picked
  | _ => True

instance (table : MessageTable) (picked : List String) :
    (update : Update) → Decidable (update.Admits table picked)
  | .claimBatch _ _ _ _ _ => inferInstanceAs (Decidable (Picks _ _ _))
  | .dropPending _ | .dropClaimed _ _ _ | .reclaim _ | .claimOne _ _ _
  | .release _ _ _ | .renew _ _ _ _ | .deliver _ _ _ | .fail _ _ _ _ _
  | .recover => .isTrue trivial

/-- Run an `UPDATE`: the rows it affected, as they are now, and the table. -/
def execute (picked : List String) (update : Update) (table : MessageTable) :
    List MessageRow × MessageTable :=
  ((table.rows.filter (update.guard picked)).map update.set,
    table.update (update.guard picked) update.assignment)

/-- What an `UPDATE` leaves of one row. -/
def rewrite (picked : List String) (update : Update) (row : MessageRow) :
    MessageRow :=
  if update.guard picked row then update.set row else row

variable (picked : List String)

theorem execute_rows (update : Update) (table : MessageTable) :
    (update.execute picked table).2.rows = table.rows.map (update.rewrite picked) :=
  rfl

theorem mem_execute {picked : List String} {update : Update} {table : MessageTable}
    {row : MessageRow} :
    row ∈ (update.execute picked table).2.rows ↔
      ∃ stored ∈ table.rows, update.rewrite picked stored = row :=
  Table.mem_update

theorem mem_affected {picked : List String} {update : Update} {table : MessageTable}
    {row : MessageRow} :
    row ∈ (update.execute picked table).1 ↔ ∃ stored ∈ table.rows,
        update.guard picked stored = true ∧ update.set stored = row := by
  simp [execute, and_assoc]

@[simp]
theorem rewrite_toMessage (update : Update) (row : MessageRow) :
    (update.rewrite picked row).toMessage = row.toMessage := by
  unfold rewrite
  split
  · exact update.set_toMessage row
  · rfl

@[simp]
theorem rewrite_id (update : Update) (row : MessageRow) :
    (update.rewrite picked row).id = row.id :=
  congrArg Message.id (rewrite_toMessage picked update row)

end Update

/-! ## Acknowledging a group -/

/-- The transaction of `delivered_batch` on one shard: for each pair the topic
of the row it ended, if it ended one. -/
def deliverGroup (now : Nat) :
    List (String × String) → MessageTable → List (Option String) × MessageTable
  | [], table => ([], table)
  | (id, lease) :: rest, table =>
    let affected := (Update.deliver now id lease).execute [] table
    let later := deliverGroup now rest affected.2
    (affected.1.head?.map (·.topic) :: later.1, later.2)

def MessageRow.acknowledged (now : Nat) (row : MessageRow) : MessageRow :=
  { row with
    status := .delivered
    deliveredAt := some now
    lastError := none
    lease := none }

def MessageRow.presented (group : List (String × String)) (row : MessageRow) :
    Bool :=
  group.any fun pair => row.held pair.1 pair.2

theorem MessageRow.presented_iff {group : List (String × String)} {row : MessageRow} :
    row.presented group = true ↔ ∃ pair ∈ group, row.held pair.1 pair.2 = true :=
  List.any_eq_true

theorem MessageRow.presented_cons (pair : String × String) (rest : List (String × String))
    (row : MessageRow) :
    row.presented (pair :: rest) = (row.held pair.1 pair.2 || row.presented rest) :=
  rfl

theorem Update.rewrite_deliver (now : Nat) (id lease : String) (row : MessageRow) :
    (Update.deliver now id lease).rewrite [] row =
      if row.held id lease then row.acknowledged now else row :=
  rfl

theorem MessageRow.presented_acknowledged (now : Nat) (group : List (String × String))
    (row : MessageRow) :
    (row.acknowledged now).presented group = false := by
  rw [Bool.eq_false_iff]
  intro presented
  obtain ⟨pair, _, held⟩ := MessageRow.presented_iff.mp presented
  cases (MessageRow.held_iff.mp held).2.1

/-- The whole transaction is one update of the rows whose lease is
presented: a row once acknowledged is held by no later pair. -/
theorem deliverGroup_rows (now : Nat) : ∀ (group : List (String × String)) (table : MessageTable),
    (deliverGroup now group table).2.rows = table.rows.map fun row =>
        if row.presented group then row.acknowledged now else row
  | [], table => by
    simp [deliverGroup, MessageRow.presented]
  | (id, lease) :: rest, table => by
    rw [deliverGroup, deliverGroup_rows now rest, Update.execute_rows, List.map_map]
    refine List.map_congr_left fun row _ => ?_
    rw [Function.comp_apply, Update.rewrite_deliver, MessageRow.presented_cons]
    cases row.held id lease with
    | true => simp [MessageRow.presented_acknowledged]
    | false => simp

/-! ## Inserting -/

/-- Why a call of the database failed, or that it panicked. -/
inductive DbError where
  | statement
  | conflictWithoutKey
  | rowNotFound
  | durationOutOfRange
  | attributesJson
  | panicked
  deriving DecidableEq, Repr

/-- `EnqueueInput`; the attributes are the JSON text that is stored. -/
structure EnqueueInput where
  id : String
  idempotencyKey : Option String
  topic : String
  payload : List UInt8
  attributes : String
  deriving DecidableEq, Repr

/-- The row an accepted message starts as. -/
def EnqueueInput.row (input : EnqueueInput) (now : Nat) : MessageRow where
  id := input.id
  idempotencyKey := input.idempotencyKey
  topic := input.topic
  payload := input.payload
  attributes := input.attributes
  createdAt := now
  status := .pending
  attempts := 0
  nextAttemptAt := now
  lastError := none
  deliveredAt := none
  lease := none

/-- One item of `enqueue_batch`: the identifier it is stored under, and whether
it was a duplicate. -/
def enqueueItem (input : EnqueueInput) (now : Nat) (table : MessageTable) :
    Except DbError ((String × Bool) × MessageTable) :=
  if table.Conflicts (input.row now) then
    match input.idempotencyKey with
    | none => .error .conflictWithoutKey
    | some key =>
      match
        table.rows.find? fun stored => stored.idempotencyKey = some key with
      | some stored => .ok ((stored.id, true), table)
      | none => .error .rowNotFound
  else
    .ok ((input.id, false), table.insertOrIgnore (input.row now))

/-- The transaction of `enqueue_batch` on one shard; each item reads the clock
for itself.  An error rolls the whole group back. -/
def enqueueGroup :
    List (EnqueueInput × Nat) → MessageTable → Except DbError (List (String × Bool) × MessageTable)
  | [], table => .ok ([], table)
  | (input, now) :: rest, table =>
    match enqueueItem input now table with
    | .error problem => .error problem
    | .ok (result, stored) =>
      match enqueueGroup rest stored with
      | .error problem => .error problem
      | .ok (results, final) => .ok (result :: results, final)

variable {table : MessageTable} {input : EnqueueInput} {result : String × Bool}
  {stored : MessageTable} {now : Nat} {key : String}

theorem enqueueItem_cases (accepted : enqueueItem input now table = .ok (result, stored)) :
    (¬ table.Conflicts (input.row now) ∧ result = (input.id, false) ∧
        stored.rows = table.rows ++ [input.row now]) ∨
      ∃ key original, input.idempotencyKey = some key ∧ original ∈ table.rows ∧
          original.idempotencyKey = some key ∧
          result = (original.id, true) ∧ stored = table := by
  unfold enqueueItem at accepted
  split at accepted
  · split at accepted
    · cases accepted
    · next key keyed =>
      split at accepted
      · next original found =>
        cases accepted
        refine .inr ⟨key, original, keyed, List.mem_of_find?_eq_some found, ?_, rfl, rfl⟩
        simpa using List.find?_some found
      · cases accepted
  · next free =>
    cases accepted
    refine .inl ⟨free, rfl, ?_⟩
    rw [Table.insertOrIgnore_rows, if_neg free]

theorem enqueueGroup_cons {rest : List (EnqueueInput × Nat)}
    {table stored : MessageTable} {results : List (String × Bool)}
    (accepted : enqueueGroup ((input, now) :: rest) table = .ok (results, stored)) :
    ∃ result middle later, enqueueItem input now table = .ok (result, middle) ∧
      enqueueGroup rest middle = .ok (later, stored) ∧ results = result :: later := by
  unfold enqueueGroup at accepted
  split at accepted
  · cases accepted
  · next result middle first =>
    split at accepted
    · cases accepted
    · next later final group =>
      cases accepted
      exact ⟨result, middle, later, first, group, rfl⟩

/-- A group keeps the stored rows and adds rows of its items only. -/
theorem enqueueGroup_rows : ∀ {group : List (EnqueueInput × Nat)} {table stored : MessageTable}
    {results : List (String × Bool)},
    enqueueGroup group table = .ok (results, stored) → (∀ row ∈ table.rows, row ∈ stored.rows) ∧
        ∀ row ∈ stored.rows, row ∈ table.rows ∨ ∃ item ∈ group, row = item.1.row item.2
  | [], table, stored, results, accepted => by
    cases accepted
    exact ⟨fun _ member => member, fun _ member => .inl member⟩
  | (input, now) :: rest, table, stored, results, accepted => by
    obtain ⟨_, middle, _, item, group, rfl⟩ := enqueueGroup_cons accepted
    obtain ⟨kept, added⟩ := enqueueGroup_rows group
    have first : (∀ row ∈ table.rows, row ∈ middle.rows) ∧
        ∀ row ∈ middle.rows, row ∈ table.rows ∨ row = input.row now := by
      rcases enqueueItem_cases item with ⟨_, _, rows⟩ | ⟨_, _, _, _, _, _, rfl⟩
      · rw [rows]
        exact ⟨by simp +contextual, by simp⟩
      · exact ⟨fun _ member => member, fun _ member => .inl member⟩
    refine ⟨fun row member => kept row (first.1 row member), ?_⟩
    intro row member
    rcases added row member with old | ⟨item, listed, same⟩
    · rcases first.2 row old with older | new
      · exact .inl older
      · exact .inr ⟨(input, now), .head _, new⟩
    · exact .inr ⟨item, .tail _ listed, same⟩

theorem enqueueGroup_stored : ∀ {group : List (EnqueueInput × Nat)} {table stored : MessageTable}
    {results : List (String × Bool)},
    enqueueGroup group table = .ok (results, stored) → ∀ item ∈ group, ∃ row ∈ stored.rows,
        row = item.1.row item.2 ∨
          ∃ key, item.1.idempotencyKey = some key ∧ row.idempotencyKey = some key
  | [], _, _, _, _ => nofun
  | (input, now) :: rest, table, stored, results, accepted => by
    obtain ⟨_, _, _, first, group, rfl⟩ := enqueueGroup_cons accepted
    intro item member
    rcases List.mem_cons.mp member with rfl | older
    · have kept := (enqueueGroup_rows group).1
      rcases enqueueItem_cases first with
        ⟨_, _, rows⟩ | ⟨key, original, keyed, listed, same, _, rfl⟩
      · refine ⟨input.row now, kept _ ?_, .inl rfl⟩
        rw [rows]
        exact List.mem_append_right _ (.head _)
      · exact ⟨original, kept original listed, .inr ⟨key, keyed, same⟩⟩
    · exact enqueueGroup_stored group item older

/-! ## Messages under a key -/

def storedUnder (key : String) (table : MessageTable) : List Message :=
  (table.rows.map (·.toMessage)).filter fun message =>
    message.idempotencyKey = some key

theorem mem_storedUnder {message : Message} : message ∈ storedUnder key table ↔
    ∃ row ∈ table.rows, row.toMessage = message ∧ row.idempotencyKey = some key := by
  simp only [storedUnder, List.mem_filter, List.mem_map, decide_eq_true_eq]
  constructor
  · rintro ⟨⟨row, member, rfl⟩, keyed⟩
    exact ⟨row, member, rfl, keyed⟩
  · rintro ⟨row, member, rfl, keyed⟩
    exact ⟨⟨row, member, rfl⟩, keyed⟩

theorem storedUnder_cases (key : String) (table : MessageTable) :
    storedUnder key table = [] ∨ ∃ message, storedUnder key table = [message] := by
  have nodup : (storedUnder key table).Nodup := by
    refine List.Nodup.filter _ ?_
    refine List.Nodup.of_map Message.id ?_
    rw [List.map_map]
    exact table.primaryNodup
  match shape : storedUnder key table with
  | [] => exact .inl rfl
  | [message] => exact .inr ⟨message, rfl⟩
  | first :: second :: rest =>
    rw [shape] at nodup
    have firstListed : first ∈ storedUnder key table := by simp [shape]
    have secondListed : second ∈ storedUnder key table := by simp [shape]
    obtain ⟨left, leftStored, rfl, leftKeyed⟩ := mem_storedUnder.mp firstListed
    obtain ⟨right, rightStored, rfl, rightKeyed⟩ := mem_storedUnder.mp secondListed
    have same := table.eq_of_alternate_eq leftStored rightStored leftKeyed rightKeyed
    simp [same] at nodup

theorem enqueueItem_otherKey (accepted : enqueueItem input now table = .ok (result, stored))
    (different : input.idempotencyKey ≠ some key) :
    storedUnder key stored = storedUnder key table := by
  rcases enqueueItem_cases accepted with ⟨_, _, rows⟩ | ⟨_, _, _, _, _, _, rfl⟩
  · simp [storedUnder, rows, EnqueueInput.row, different]
  · rfl

/-- An item under a key: it is the first and stored as new, or what is stored
stays and it is answered with that. -/
theorem enqueueItem_sameKey (accepted : enqueueItem input now table = .ok (result, stored))
    (keyed : input.idempotencyKey = some key) :
    (storedUnder key table = [] ∧ result = (input.id, false) ∧
        storedUnder key stored = [(input.row now).toMessage]) ∨
      (stored = table ∧ ∃ message ∈ storedUnder key table, result = (message.id, true)) := by
  rcases enqueueItem_cases accepted with
    ⟨free, result, rows⟩ | ⟨name, original, named, member, same, result, rfl⟩
  · have absent : storedUnder key table = [] := by
      refine List.eq_nil_iff_forall_not_mem.mpr fun message listed => ?_
      obtain ⟨row, member, _, rowKeyed⟩ := mem_storedUnder.mp listed
      refine free ⟨row, member, .inr ⟨?_, ?_⟩⟩
      · simp [EnqueueInput.row, keyed]
      · exact rowKeyed.trans keyed.symm
    refine .inl ⟨absent, result, ?_⟩
    have split : storedUnder key stored = storedUnder key table ++ [(input.row now).toMessage] := by
      simp [storedUnder, rows, EnqueueInput.row, keyed]
    rw [split, absent, List.nil_append]
  · rw [keyed, Option.some.injEq] at named
    subst named
    exact .inr ⟨rfl, original.toMessage, mem_storedUnder.mpr ⟨original, member, rfl, same⟩, result⟩

/-- What a group leaves under a key: what was stored, or else its first item
under the key. -/
theorem enqueueGroup_storedUnder (key : String) :
    ∀ {group : List (EnqueueInput × Nat)} {table stored : MessageTable}
      {results : List (String × Bool)},
      enqueueGroup group table = .ok (results, stored) → storedUnder key stored =
          if storedUnder key table = [] then
            ((group.find? fun item => item.1.idempotencyKey = some key).map
              fun item => (item.1.row item.2).toMessage).toList
          else
            storedUnder key table
  | [], table, stored, results, accepted => by
    cases accepted
    split
    · next absent => exact absent
    · rfl
  | (input, now) :: rest, table, stored, results, accepted => by
    obtain ⟨_, middle, _, first, group, rfl⟩ := enqueueGroup_cons accepted
    rw [enqueueGroup_storedUnder key group]
    by_cases keyed : input.idempotencyKey = some key
    · rcases enqueueItem_sameKey first keyed with
        ⟨absent, _, added⟩ | ⟨rfl, message, member, _⟩
      · simp [absent, added, keyed]
      · have present : storedUnder key middle ≠ [] :=
          List.ne_nil_of_mem member
        simp [present]
    · rw [enqueueItem_otherKey first keyed]
      simp [keyed]

/-! ## Deleting -/

/-- The `DELETE` statements. -/
inductive Removal where
  | ofTopic (topic : String)
  | ofId (id : String)
  | olderThan (cutoff : Nat)
  | deliveredBefore (cutoff : Nat)
  deriving DecidableEq, Repr

/-- The rows a `DELETE` removes. -/
def Removal.guard : Removal → MessageRow → Bool
  | .ofTopic topic, row => row.topic = topic
  | .ofId id, row => row.id = id
  | .olderThan cutoff, row => row.createdAt < cutoff
  | .deliveredBefore cutoff, row => row.status = .delivered && row.deliveredAt.any (· < cutoff)

end CanglingBroker
