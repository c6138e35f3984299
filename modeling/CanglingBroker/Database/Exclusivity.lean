import CanglingBroker.Database.Lease
import CanglingBroker.Database.Reports

/-!
# Exclusive leases

A claim grants pairs of message and lease.  Because a lease names one claim, a
pair is granted once, ends at most once, and is dead for ever when its row has
lost the lease, whatever calls still present it.
-/

namespace CanglingBroker

open Foundation

def grantsOf : (request : Action) → Reply request → List (String × String)
  | .sql (.update _ (.claimBatch lease _ _ _ _)), .ok rows => rows.map fun row => (row.id, lease)
  | .sql (.update _ (.claimOne lease _ _)), .ok rows => rows.map fun row => (row.id, lease)
  | _, _ => []

def granted (history : List Entry) : List (String × String) :=
  history.flatMap fun entry => grantsOf entry.request entry.answer

def endedIn (history : List Entry) : List (String × String) :=
  history.flatMap fun entry => endingsOf entry.request entry.answer

def MessageTable.Held (table : MessageTable) (pair : String × String) : Prop :=
  ∃ row ∈ table.rows, row.held pair.1 pair.2 = true

def Database.Current (db : Database) (pair : String × String) : Prop :=
  ∃ store, MessageTable.Held (db.messages store) pair

variable {pair : String × String} (now : Nat) {lease : String}

theorem Database.Current.carries {db : Database} (current : db.Current pair) :
    db.Carries pair.2 := by
  obtain ⟨store, row, member, held⟩ := current
  exact ⟨store, row, member, (MessageRow.held_iff.mp held).2.1⟩

/-! ## Statements that end a claim -/

/-- A statement whose guard is the lease and that clears the lease. -/
structure Update.EndsClaim (statement : Update) (id lease : String) : Prop where
  guard : ∀ picked row, statement.guard picked row = row.held id lease
  clears : ∀ row, (statement.set row).lease = none

namespace MessageTable

variable {table : MessageTable} {statement : Update} {picked : List String} {id lease : String}

theorem held_of_affected (ends : statement.EndsClaim id lease)
    (found : (statement.execute picked table).1 ≠ []) :
    Held table (id, lease) := by
  obtain ⟨row, member⟩ := List.exists_mem_of_ne_nil _ found
  obtain ⟨stored, listed, matched, _⟩ := Update.mem_affected.mp member
  rw [ends.guard] at matched
  exact ⟨stored, listed, matched⟩

theorem not_held_execute (ends : statement.EndsClaim id lease) :
    ¬ Held (statement.execute picked table).2 (id, lease) := by
  rintro ⟨row, member, held⟩
  obtain ⟨stored, listed, rfl⟩ := Update.mem_execute.mp member
  unfold Update.rewrite at held
  split at held
  · have carried := (MessageRow.held_iff.mp held).2.1
    rw [ends.clears] at carried
    cases carried
  · next unmatched =>
    rw [ends.guard] at unmatched
    exact unmatched held

theorem held_of_held_deliver {now : Nat} {pair : String × String}
    (held : Held ((Update.deliver now id lease).execute [] table).2 pair) :
    Held table pair := by
  obtain ⟨row, member, rowHeld⟩ := held
  obtain ⟨stored, listed, rfl⟩ := Update.mem_execute.mp member
  rw [Update.rewrite_deliver] at rowHeld
  split at rowHeld
  · cases (MessageRow.held_iff.mp rowHeld).2.1
  · exact ⟨stored, listed, rowHeld⟩

end MessageTable

theorem endsClaim_release (id lease : String) :
    (Update.release now id lease).EndsClaim id lease :=
  ⟨fun _ _ => rfl, fun _ => rfl⟩

theorem endsClaim_fail (status : Status) (next : Nat) (error id lease : String) :
    (Update.fail status next error id lease).EndsClaim id lease :=
  ⟨fun _ _ => rfl, fun _ => rfl⟩

theorem endsClaim_dropClaimed (error id lease : String) :
    (Update.dropClaimed error id lease).EndsClaim id lease :=
  ⟨fun _ _ => rfl, fun _ => rfl⟩

theorem endsClaim_deliver (id lease : String) :
    (Update.deliver now id lease).EndsClaim id lease :=
  ⟨fun _ _ => rfl, fun _ => rfl⟩

/-- A group ends each claim at most once, and only claims that were held. -/
theorem deliverGroup_endings (now : Nat) :
    ∀ (group : List (String × String)) (table : MessageTable),
      (deliveredPairs group (deliverGroup now group table).1).Nodup ∧
        ∀ pair ∈ deliveredPairs group (deliverGroup now group table).1, MessageTable.Held table pair
  | [], table => by simp [deliveredPairs]
  | (id, lease) :: rest, table => by
    obtain ⟨unique, held⟩ :=
      deliverGroup_endings now rest ((Update.deliver now id lease).execute [] table).2
    rw [deliverGroup]
    cases affected : ((Update.deliver now id lease).execute [] table).1 with
    | nil =>
      refine ⟨unique, fun pair member => ?_⟩
      exact MessageTable.held_of_held_deliver (held pair member)
    | cons row others =>
      have found : ((Update.deliver now id lease).execute [] table).1 ≠ [] := by
        rw [affected]
        exact List.cons_ne_nil row others
      refine ⟨List.nodup_cons.mpr ⟨fun again => ?_, unique⟩, ?_⟩
      · exact
          MessageTable.not_held_execute (endsClaim_deliver now id lease) (held (id, lease) again)
      · intro pair member
        rcases List.mem_cons.mp member with rfl | inRest
        · exact MessageTable.held_of_affected (endsClaim_deliver now id lease) found
        · exact MessageTable.held_of_held_deliver (held pair inRest)

theorem not_held_deliverGroup {now : Nat} {group : List (String × String)} {table : MessageTable}
    (presented : pair ∈ group) :
    ¬ MessageTable.Held (deliverGroup now group table).2 pair := by
  rintro ⟨row, member, held⟩
  rw [deliverGroup_rows] at member
  obtain ⟨stored, listed, rfl⟩ := List.mem_map.mp member
  split at held
  · cases (MessageRow.held_iff.mp held).2.1
  · next unpresented =>
    exact unpresented (MessageRow.presented_iff.mpr ⟨pair, presented, held⟩)

/-! ## One step -/

/-- A statement that ended a claim found it held in its table, once, and left it
dead there, with every other table as it was. -/
structure EndsIn (before after : Database) (store : Store)
    (pairs : List (String × String)) (pair : String × String) : Prop where
  held : MessageTable.Held (before.messages store) pair
  dead : ¬ MessageTable.Held (after.messages store) pair
  elsewhere : ∀ other, other ≠ store → after.messages other = before.messages other
  once : pairs.count pair ≤ 1

private theorem count_hit_le (rows : List MessageRow) (id lease : String) (pair : String × String) :
    (hit rows id lease).count pair ≤ 1 := by
  refine le_trans List.count_le_length ?_
  unfold hit
  split <;> simp

private theorem mem_of_mem_hit {rows : List MessageRow} {id : String}
    (member : pair ∈ hit rows id lease) : rows ≠ [] ∧ pair = (id, lease) := by
  unfold hit at member
  split at member
  · cases member
  · next nonempty =>
    refine ⟨?_, by simpa using member⟩
    rintro rfl
    exact nonempty rfl

private theorem endsIn_update {before : Database} {store : Store} {statement : Update} {id : String}
    (ends : statement.EndsClaim id lease) (picked : List String)
    (member : pair ∈ hit (statement.execute picked (before.messages store)).1 id lease) :
    EndsIn before
      (before.setMessages store (statement.execute picked (before.messages store)).2)
      store (hit (statement.execute picked (before.messages store)).1 id lease)
      pair := by
  obtain ⟨found, rfl⟩ := mem_of_mem_hit member
  refine ⟨MessageTable.held_of_affected ends found, ?_, ?_, count_hit_le _ _ _ _⟩
  · rw [Database.setMessages_messages_self]
    exact MessageTable.not_held_execute ends
  · intro other different
    exact Database.setMessages_messages_of_ne different _ before

structure Update.ClaimsUnder (statement : Update) (lease : String) : Prop where
  leases : ∀ row, (statement.set row).lease = some lease
  claims : ∀ row, (statement.set row).status = .processing

private theorem held_of_claimed {table : MessageTable} {statement : Update} {picked : List String}
    (claims : statement.ClaimsUnder lease) {row : MessageRow}
    (member : row ∈ (statement.execute picked table).1) :
    MessageTable.Held (statement.execute picked table).2 (row.id, lease) := by
  obtain ⟨stored, listed, matched, rfl⟩ := Update.mem_affected.mp member
  refine ⟨statement.set stored, Update.mem_execute.mpr ⟨stored, listed, ?_⟩, ?_⟩
  · rw [Update.rewrite, if_pos matched]
  · exact MessageRow.held_iff.mpr ⟨rfl, claims.leases stored, claims.claims stored⟩

private theorem nodup_claimed (table : MessageTable) (statement : Update) (picked : List String)
    (lease : String) :
    ((statement.execute picked table).1.map fun row => (row.id, lease)).Nodup := by
  have ids : (statement.execute picked table).1.map (fun row => row.id) =
      (table.rows.filter (statement.guard picked)).map fun row => row.id := by
    rw [Update.execute, List.map_map]
    refine List.map_congr_left fun row _ => ?_
    exact congrArg Message.id (statement.set_toMessage row)
  have unique : ((statement.execute picked table).1.map fun row => row.id).Nodup := by
    rw [ids]
    exact table.primaryNodup.sublist (List.filter_sublist.map _)
  have paired : ((statement.execute picked table).1.map fun row => (row.id, lease)) =
      ((statement.execute picked table).1.map fun row => row.id).map fun id => (id, lease) := by
    rw [List.map_map]
    rfl
  rw [paired]
  exact unique.map fun _ _ same => congrArg Prod.fst same

namespace Effect

variable {before after : Database} {request : Action} {answer : Reply request}
  {pair : String × String}

theorem endsIn (effect : Effect before request answer after)
    (member : pair ∈ endingsOf request answer) :
    ∃ store, EndsIn before after store (endingsOf request answer) pair := by
  cases effect with
  | updated store statement picked =>
    cases statement with
    | release now id lease =>
      exact ⟨store, endsIn_update (endsClaim_release now id lease) picked member⟩
    | fail status next error id lease =>
      exact ⟨store, endsIn_update (endsClaim_fail status next error id lease) picked member⟩
    | dropClaimed error id lease =>
      exact ⟨store, endsIn_update (endsClaim_dropClaimed error id lease) picked member⟩
    | dropPending | reclaim | claimBatch | claimOne | renew | deliver | recover => cases member
  | delivered store now group =>
    obtain ⟨unique, held⟩ := deliverGroup_endings now group (before.messages store)
    refine ⟨store, held pair member, ?_, ?_, List.nodup_iff_count_le_one.mp unique pair⟩
    · rw [Database.setMessages_messages_self]
      refine not_held_deliverGroup ?_
      obtain ⟨entry, zipped, made⟩ := List.mem_filterMap.mp member
      obtain ⟨topic, _, rfl⟩ := Option.map_eq_some_iff.mp made
      exact (List.of_mem_zip zipped).1
    · intro other different
      exact Database.setMessages_messages_of_ne different _ before
  | enqueued | copied | removed | held | listed | drawn => cases member
  | refused => simp [endingsOf] at member
  | other _ _ _ harmless =>
    exfalso
    unfold Call.Harmless at harmless
    unfold endingsOf at member
    split at member <;> simp_all

/-- The pairs a claim hands out are distinct, and current after it. -/
theorem grants (effect : Effect before request answer after)
    (member : pair ∈ grantsOf request answer) :
    request.claimLease = some pair.2 ∧ (grantsOf request answer).Nodup ∧ after.Current pair := by
  cases effect with
  | updated store statement picked =>
    cases statement with
    | claimBatch lease | claimOne lease =>
      obtain ⟨row, listed, rfl⟩ := List.mem_map.mp member
      refine ⟨rfl, nodup_claimed _ _ picked lease, store, ?_⟩
      rw [Database.setMessages_messages_self]
      exact held_of_claimed ⟨fun _ => rfl, fun _ => rfl⟩ listed
    | release | fail | dropClaimed | dropPending | reclaim | renew | deliver | recover =>
      cases member
  | delivered | enqueued | copied | removed | held | listed | drawn => cases member
  | refused => simp [grantsOf] at member
  | other _ _ _ harmless =>
    exfalso
    unfold Call.Harmless at harmless
    unfold grantsOf at member
    split at member <;> simp_all

end Effect

theorem endingsOf_of_claimLease {request : Action} {answer : Reply request}
    (claims : request.claimLease = some lease) : endingsOf request answer = [] := by
  unfold Action.claimLease at claims
  split at claims
  · simp [endingsOf]
  · simp [endingsOf]
  · cases claims

namespace Trace

variable {initial db : Database} {history : List Entry}

/-- A pair held after an action was held before it in the same table, or was
just claimed. -/
theorem held_cases (sound : initial.Sound) {entry : Entry} {store : Store}
    {pair : String × String} (act : Act initial history entry)
    (held : MessageTable.Held (entry.after.messages store) pair) :
    MessageTable.Held (entry.before.messages store) pair ∨ (entry.request.claimLease = some pair.2 ∧
        ∃ statement, entry.request = .sql (.update store statement)) := by
  obtain ⟨earlier, effect, may⟩ := act
  obtain ⟨row, member, rowHeld⟩ := held
  obtain ⟨sameId, carried, claimed⟩ := MessageRow.held_iff.mp rowHeld
  rcases effect.rows_after member with ⟨stored, listed, moves⟩ | created
  · rcases moves.lease_cases carried with ⟨old, status, _⟩ | ⟨claims, was, now, _⟩
    · refine .inl ⟨stored, listed, MessageRow.held_iff.mpr ⟨?_, old, ?_⟩⟩
      · rw [← sameId]
        exact (congrArg Message.id moves.toMessage_eq).symm
      · rw [← status]
        exact claimed
    · refine .inr ⟨claims, ?_⟩
      cases moves with
      | same =>
        rw [was] at now
        cases now
      | updated statement _ asked => exact ⟨statement, asked⟩
      | delivered => cases carried
  · rw [(earlier.created_unclaimed sound may created).2] at carried
    cases carried

end Trace

/-! ## Whole runs -/

/-- What holds of the pairs granted in a run. -/
structure Exclusive (history : List Entry) (db : Database) : Prop where
  carried :
    ∀ pair ∈ granted history, ∃ state ∈ visited history db, state.Carries pair.2
  distinct : (granted history).Nodup
  endedCarried :
    ∀ pair ∈ endedIn history, ∃ state ∈ visited history db, state.Carries pair.2
  once : ∀ pair ∈ granted history, (endedIn history).count pair ≤ 1
  spent : ∀ pair ∈ granted history, pair ∈ endedIn history → ¬ db.Current pair
  located :
    ∀ pair ∈ granted history, ∀ store other, MessageTable.Held (db.messages store) pair →
        MessageTable.Held (db.messages other) pair → store = other

theorem granted_cons (entry : Entry) (history : List Entry) :
    granted (entry :: history) = grantsOf entry.request entry.answer ++ granted history :=
  List.flatMap_cons

theorem endedIn_cons (entry : Entry) (history : List Entry) :
    endedIn (entry :: history) = endingsOf entry.request entry.answer ++ endedIn history :=
  List.flatMap_cons

namespace Trace

variable {initial db : Database} {history : List Entry}

section Act

variable {entry : Entry} {pair : String × String}

theorem held_before (sound : initial.Sound) {store : Store} (act : Act initial history entry)
    (carried : ∃ state ∈ visited history entry.before, state.Carries pair.2)
    (held : MessageTable.Held (entry.after.messages store) pair) :
    MessageTable.Held (entry.before.messages store) pair := by
  rcases held_cases sound act held with old | ⟨claims, _⟩
  · exact old
  · obtain ⟨state, seen, carries⟩ := carried
    exact absurd carries (act.earlier.unused_of_claim sound act.may claims state seen)

theorem carried_cons (carried : ∃ state ∈ visited history entry.before, state.Carries pair.2) :
    ∃ state ∈ visited (entry :: history) entry.after, state.Carries pair.2 := by
  obtain ⟨state, seen, carries⟩ := carried
  exact ⟨state, .tail _ seen, carries⟩

theorem exclusive_act (sound : initial.Sound) (act : Act initial history entry)
    (exclusive : Exclusive history entry.before) :
    Exclusive (entry :: history) entry.after := by
  have effect := act.effect
  -- a pair granted now has a lease no state has carried
  have newLease : ∀ {pair}, pair ∈ grantsOf entry.request entry.answer →
      ∀ state ∈ visited history entry.before, ¬ state.Carries pair.2 :=
    fun granting =>
      act.earlier.unused_of_claim sound act.may (effect.grants granting).1
  have notEndedBefore :
      ∀ {pair}, pair ∈ grantsOf entry.request entry.answer → pair ∉ endedIn (entry :: history) := by
    intro pair granting ended
    rw [endedIn_cons, endingsOf_of_claimLease (effect.grants granting).1, List.nil_append] at ended
    obtain ⟨state, seen, carries⟩ := exclusive.endedCarried pair ended
    exact newLease granting state seen carries
  constructor
  · intro pair member
    rw [granted_cons] at member
    rcases List.mem_append.mp member with granting | old
    · exact ⟨entry.after, .head _, (effect.grants granting).2.2.carries⟩
    · exact carried_cons (exclusive.carried pair old)
  · rw [granted_cons, List.nodup_append]
    refine ⟨?_, exclusive.distinct, ?_⟩
    · cases shape : grantsOf entry.request entry.answer with
      | nil => exact List.nodup_nil
      | cons =>
        rw [← shape]
        exact (effect.grants (by rw [shape]; exact List.mem_cons_self)).2.1
    · rintro pair granting other old rfl
      obtain ⟨state, seen, carries⟩ := exclusive.carried pair old
      exact newLease granting state seen carries
  · intro pair member
    rw [endedIn_cons] at member
    rcases List.mem_append.mp member with ending | old
    · obtain ⟨store, ended⟩ := effect.endsIn ending
      exact ⟨entry.before, by simp [visited], Database.Current.carries ⟨store, ended.held⟩⟩
    · exact carried_cons (exclusive.endedCarried pair old)
  · intro pair member
    rw [granted_cons] at member
    rcases List.mem_append.mp member with granting | old
    · rw [List.count_eq_zero.mpr (notEndedBefore granting)]
      exact Nat.zero_le 1
    · rw [endedIn_cons, List.count_append]
      by_cases ending : pair ∈ endingsOf entry.request entry.answer
      · obtain ⟨store, ended⟩ := effect.endsIn ending
        have unspent : pair ∉ endedIn history := fun spent =>
          exclusive.spent pair old spent ⟨store, ended.held⟩
        rw [List.count_eq_zero.mpr unspent]
        exact ended.once
      · rw [List.count_eq_zero.mpr ending, Nat.zero_add]
        exact exclusive.once pair old
  · intro pair member spent current
    rw [granted_cons] at member
    rcases List.mem_append.mp member with granting | old
    · exact notEndedBefore granting spent
    · obtain ⟨other, held⟩ := current
      have heldBefore := held_before sound act (exclusive.carried pair old) held
      rw [endedIn_cons] at spent
      rcases List.mem_append.mp spent with ending | oldEnding
      · obtain ⟨store, ended⟩ := effect.endsIn ending
        have same := exclusive.located pair old other store heldBefore ended.held
        exact ended.dead (same ▸ held)
      · exact exclusive.spent pair old oldEnding ⟨other, heldBefore⟩
  · intro pair member store other held otherHeld
    rw [granted_cons] at member
    rcases List.mem_append.mp member with granting | old
    · -- the claim's own table is the only one with the new lease
      have claimedIn : ∀ {target}, MessageTable.Held (entry.after.messages target) pair →
          ∃ statement, entry.request = .sql (.update target statement) := by
        intro target heldThere
        rcases held_cases sound act heldThere with before | ⟨_, asked⟩
        · exact
            absurd (Database.Current.carries ⟨target, before⟩)
              (newLease granting entry.before (.head _))
        · exact asked
      obtain ⟨statement, asked⟩ := claimedIn held
      obtain ⟨otherStatement, otherAsked⟩ := claimedIn otherHeld
      rw [asked] at otherAsked
      simp only [Action.sql.injEq, Sql.update.injEq] at otherAsked
      exact otherAsked.1
    · have carried := exclusive.carried pair old
      exact exclusive.located pair old store other
        (held_before sound act carried held)
        (held_before sound act carried otherHeld)

end Act

theorem exclusive (sound : initial.Sound) (trace : Trace initial history db) :
    Exclusive history db := by
  induction trace with
  | start => constructor <;> simp [granted, endedIn]
  | @restart history db earlier ih =>
    have sameStates : ∀ {pair : String × String},
        (∃ state ∈ visited history db, state.Carries pair.2) →
          ∃ state ∈ visited history db.restart, state.Carries pair.2 := by
      rintro pair ⟨state, seen, carries⟩
      rcases List.mem_cons.mp seen with rfl | older
      · exact ⟨_, .head _, carries⟩
      · exact ⟨state, .tail _ older, carries⟩
    exact ⟨fun pair member => sameStates (ih.carried pair member),
      ih.distinct,
      fun pair member =>
        sameStates (ih.endedCarried pair member),
      ih.once, ih.spent,
      ih.located⟩
  | act _ earlier effect may ih => exact exclusive_act sound ⟨earlier, effect, may⟩ ih

end Trace

/-! ## Stale leases -/

def presentsOf : Action → List (String × String)
  | .sql (.update _ (.release _ id lease)) => [(id, lease)]
  | .sql (.update _ (.renew _ id lease _)) => [(id, lease)]
  | .sql (.update _ (.fail _ _ _ id lease)) => [(id, lease)]
  | .sql (.update _ (.dropClaimed _ id lease)) => [(id, lease)]
  | .sql (.deliver _ _ group) => group
  | _ => []

namespace Effect

variable {before after : Database} {request : Action} {answer : Reply request}
  {pair : String × String}

theorem current_of_renewal (effect : Effect before request answer after)
    (member : pair ∈ renewalsOf request answer) : before.Current pair := by
  cases effect with
  | updated store statement =>
    cases statement with
    | renew =>
      obtain ⟨found, rfl⟩ := mem_of_mem_hit member
      obtain ⟨row, affected⟩ := List.exists_mem_of_ne_nil _ found
      obtain ⟨stored, listed, matched, _⟩ := Update.mem_affected.mp affected
      simp only [Update.guard, Bool.and_eq_true] at matched
      exact ⟨store, stored, listed, matched.1⟩
    | claimBatch | claimOne | release | fail | dropClaimed | dropPending | reclaim | deliver
    | recover => cases member
  | delivered | enqueued | copied | removed | held | listed | drawn => cases member
  | refused => simp [renewalsOf] at member
  | other _ _ _ harmless =>
    exfalso
    unfold Call.Harmless at harmless
    unfold renewalsOf at member
    split at member <;> simp_all

/-- A stale pair moves no row: what a statement that presents it does to a row
is the doing of another pair of its group. -/
theorem keeps_of_stale (effect : Effect before request answer after)
    (presented : pair ∈ presentsOf request) (stale : ¬ before.Current pair) {store : Store}
    {row : MessageRow} (listed : row ∈ (before.messages store).rows) :
    row ∈ (after.messages store).rows ∨
      ∃ other ∈ presentsOf request, other ≠ pair ∧ row.held other.1 other.2 = true := by
  have notHeld : row.held pair.1 pair.2 ≠ true := fun held => stale ⟨store, row, listed, held⟩
  rcases effect.rows_before listed with ⟨moved, member, moves⟩ | ⟨removal, asked⟩
  · cases moves with
    | same => exact .inl member
    | delivered _ _ asked presentedRow =>
      subst asked
      obtain ⟨other, inGroup, held⟩ := MessageRow.presented_iff.mp presentedRow
      refine .inr ⟨other, inGroup, ?_, held⟩
      rintro rfl
      exact notHeld held
    | updated statement _ asked matched =>
      subst asked
      exfalso
      cases statement with
      | renew =>
        simp only [Update.guard, Bool.and_eq_true] at matched
        obtain rfl := List.mem_singleton.mp presented
        exact notHeld matched.1
      | release | fail | dropClaimed =>
        obtain rfl := List.mem_singleton.mp presented
        exact notHeld matched
      | claimBatch | claimOne | dropPending | reclaim | deliver | recover => cases presented
  · subst asked
    cases presented

end Effect

/-- Since the older part of the run the pair has been stale. -/
def StaleSince (older : List Entry) (pair : String × String)
    (history : List Entry) (db : Database) : Prop :=
  ¬ db.Current pair ∧ ∃ newer, history = newer ++ older ∧ ∀ entry ∈ newer,
      ¬ entry.before.Current pair ∧ Effect entry.before entry.request entry.answer entry.after

/-- A granted pair that is not current is stale for the rest of the run. -/
theorem staleSince_of_schedule {validJson : String → Bool} {initial : Database}
    {front back : List BrokerEvent} {early late : Broker} (sound : initial.Sound)
    (scheduled : schedule validJson initial front = some early)
    (extended : schedule validJson initial (front ++ back) = some late)
    (handedOut : pair ∈ granted early.history) (lost : ¬ early.shared.Current pair) :
    StaleSince early.history pair late.history late.shared := by
  have programs : ∀ call,
      Program.Ensures (Call.May call) (fun _ _ => True) []
        ((databaseComponent validJson).program call) :=
    fun call => call.behaves_body validJson [] trivial
  obtain ⟨middle, reached, rest⟩ := run_append_eq_some.mp extended
  obtain rfl : middle = early := Option.some.inj (reached.symm.trans scheduled)
  have both :=
    Pool.history_induction_from programs
      (fun current history =>
        Trace initial history current ∧ StaleSince middle.history pair history current)
      ?_ ?_
      (Pool.accounted_replay programs scheduled)
      ⟨trace_of_schedule scheduled, lost, [], rfl, by simp⟩ rest
  · exact both.2
  · rintro entry history choice ⟨earlier, stale, newer, rfl, quiet⟩ performed may
    have effect := perform_effect performed
    have carried : ∃ state ∈ visited (newer ++ middle.history) entry.before,
        state.Carries pair.2 := by
      refine (earlier.exclusive sound).carried pair ?_
      rw [granted, List.flatMap_append]
      exact List.mem_append_right _ handedOut
    refine ⟨.act entry earlier effect may, ?_, entry :: newer, rfl, ?_⟩
    · rintro ⟨store, held⟩
      exact stale ⟨store, Trace.held_before sound ⟨earlier, effect, may⟩ carried held⟩
    · intro other member
      rcases List.mem_cons.mp member with rfl | older
      · exact ⟨stale, effect⟩
      · exact quiet other older
  · rintro current history ⟨earlier, stale, newer, shape, quiet⟩
    exact ⟨.restart earlier, stale, newer, shape, quiet⟩

/-! ## The guarantees -/

/-- Two claims of one message are never both current. -/
def ClaimsExclude (pool : Broker) : Prop :=
  ∀ (first second : Nat) (id firstLease secondLease : String), first ≠ second →
    (granted pool.history)[first]? = some (id, firstLease) →
      (granted pool.history)[second]? = some (id, secondLease) → ∀ store,
          ¬ (MessageTable.Held (pool.shared.messages store) (id, firstLease) ∧
            MessageTable.Held (pool.shared.messages store) (id, secondLease))

/-- At most one of the returned calls reports the end of a granted claim. -/
def EndsReportedOnce (pool : Broker) : Prop :=
  ∀ pair ∈ granted pool.history,
    (pool.finished.flatMap fun returned => accepted returned.call returned.result).count pair ≤ 1

/-- A granted pair that has lost its row never gets it back: no later statement
that presents it has an effect through it, a call that reports otherwise had its
effect before, and a call begun since does not succeed. -/
def StaleLeasesFail (early late : Broker) : Prop :=
  ∀ pair ∈ granted early.history, ¬ early.shared.Current pair → ¬ late.shared.Current pair ∧
      (∃ newer, late.history = newer ++ early.history ∧
        ∀ entry ∈ newer, pair ∈ presentsOf entry.request →
          pair ∉ endingsOf entry.request entry.answer ∧
            pair ∉ renewalsOf entry.request entry.answer ∧
            ∀ store, ∀ row ∈ (entry.before.messages store).rows,
              row ∈ (entry.after.messages store).rows ∨
                ∃ other ∈ presentsOf entry.request, other ≠ pair ∧
                  row.held other.1 other.2 = true) ∧
      ∀ returned ∈ late.finished, (pair ∈ accepted returned.call returned.result ∨
          pair ∈ renewed returned.call returned.result) →
          returned.born < early.history.length ∧
            ∃ entry ∈ early.history, entry.thread = returned.thread ∧
              (pair ∈ endingsOf entry.request entry.answer ∨
                pair ∈ renewalsOf entry.request entry.answer)

/-- The row `failed` has read is, as far as attempts go, the row it updates. -/
def FailReadsItsRow (pool : Broker) : Prop :=
  ∀ newer entry older, pool.history = newer ++ entry :: older → ∀ store status next error id lease,
      entry.request = .sql (.update store (.fail status next error id lease)) →
        ∃ reading ∈ older, ∃ (read : MessageRow) (maxAttempts : Int),
          reading.thread = entry.thread ∧
            reading.exchange = ⟨.sql (.selectHeld store id lease), Except.ok (some read)⟩ ∧
            entry.call = .failed id lease error maxAttempts ∧
            status = verdict read.attempts maxAttempts ∧
            ∀ row ∈ (entry.before.messages store).rows,
              row.held id lease = true → row.attempts = read.attempts

section Guarantees

variable {validJson : String → Bool} {initial : Database}
  {events : List BrokerEvent} {pool : Broker}

theorem claimsExclude_of_schedule (sound : initial.Sound)
    (scheduled : schedule validJson initial events = some pool) :
    ClaimsExclude pool := by
  have distinct := ((trace_of_schedule scheduled).exclusive sound).distinct
  rintro first second id firstLease secondLease different firstGrant secondGrant
    store ⟨⟨row, member, held⟩, ⟨other, otherMember, otherHeld⟩⟩
  obtain ⟨sameId, carried, _⟩ := MessageRow.held_iff.mp held
  obtain ⟨otherId, otherCarried, _⟩ := MessageRow.held_iff.mp otherHeld
  obtain rfl : row = other :=
    Table.eq_of_primary_eq _ member otherMember (sameId.trans otherId.symm)
  obtain rfl : firstLease = secondLease := Option.some.inj (carried.symm.trans otherCarried)
  have bound : first < (granted pool.history).length := (List.getElem?_eq_some_iff.mp firstGrant).1
  exact different ((List.getElem?_inj bound distinct).mp (firstGrant.trans secondGrant.symm))

theorem accounted_of_schedule (scheduled : schedule validJson initial events = some pool) :
    Pool.Accounted (fun _ _ _ => True) Call.Reports pool :=
  Pool.accounted_replay (fun call => call.reports_body validJson) scheduled

theorem endsReportedOnce_of_schedule (sound : initial.Sound)
    (scheduled : schedule validJson initial events = some pool) :
    EndsReportedOnce pool := by
  have accounted := accounted_of_schedule scheduled
  intro pair handedOut
  calc
    _ ≤ (endedIn pool.history).count pair :=
      Pool.count_finished_le accounted
        (fun exchange => endingsOf exchange.request exchange.answer)
        (fun returned => accepted returned.call returned.result) pair
        fun returned member => (accounted.finished returned member).1 pair
    _ ≤ 1 := ((trace_of_schedule scheduled).exclusive sound).once pair handedOut

/-- A reported end or renewal is an entry of the history by the same thread. -/
theorem exists_entry_of_reported (scheduled : schedule validJson initial events = some pool)
    {returned : Finished Call Outcome} (member : returned ∈ pool.finished)
    {pair : String × String}
    (reported :
      pair ∈ accepted returned.call returned.result ∨
        pair ∈ renewed returned.call returned.result) :
    ∃ entry ∈ pool.history, entry.thread = returned.thread ∧
      (pair ∈ endingsOf entry.request entry.answer ∨
        pair ∈ renewalsOf entry.request entry.answer) := by
  obtain ⟨ends, renews⟩ := (accounted_of_schedule scheduled).finished returned member
  rcases reported with ended | prolonged
  · have onPath :
        pair ∈ endings (ownPath returned.thread pool.history) :=
      List.one_le_count_iff.mp (le_trans (List.one_le_count_iff.mpr ended) (ends pair))
    obtain ⟨exchange, walked, ending⟩ := List.mem_flatMap.mp onPath
    obtain ⟨entry, performed, own, rfl⟩ := exists_performed_of_mem_ownPath walked
    exact ⟨entry, performed, own, .inl ending⟩
  · obtain ⟨exchange, walked, renewal⟩ :=
      List.mem_flatMap.mp (renews pair prolonged)
    obtain ⟨entry, performed, own, rfl⟩ := exists_performed_of_mem_ownPath walked
    exact ⟨entry, performed, own, .inr renewal⟩

theorem staleLeasesFail_of_schedule {front back : List BrokerEvent} {early late : Broker}
    (sound : initial.Sound) (scheduled : schedule validJson initial front = some early)
    (extended : schedule validJson initial (front ++ back) = some late) :
    StaleLeasesFail early late := by
  intro pair handedOut lost
  obtain ⟨dead, newer, shape, quiet⟩ :=
    staleSince_of_schedule sound scheduled extended handedOut lost
  have ineffective : ∀ entry ∈ newer,
      pair ∉ endingsOf entry.request entry.answer ∧
        pair ∉ renewalsOf entry.request entry.answer := by
    intro entry member
    obtain ⟨stale, effect⟩ := quiet entry member
    refine ⟨fun ending => ?_, fun renewal => stale (effect.current_of_renewal renewal)⟩
    obtain ⟨store, ended⟩ := effect.endsIn ending
    exact stale ⟨store, ended.held⟩
  refine ⟨dead, ⟨newer, shape, ?_⟩, ?_⟩
  · intro entry member presented
    obtain ⟨stale, effect⟩ := quiet entry member
    exact ⟨(ineffective entry member).1, (ineffective entry member).2,
      fun store row listed => effect.keeps_of_stale presented stale listed⟩
  · intro returned member reported
    obtain ⟨entry, performed, own, effective⟩ := exists_entry_of_reported extended member reported
    have inEarly : entry ∈ early.history := by
      rw [shape] at performed
      rcases List.mem_append.mp performed with recent | old
      · exact absurd effective (not_or.mpr (ineffective entry recent))
      · exact old
    refine ⟨?_, entry, inEarly, own, effective⟩
    by_contra notBefore
    have started := (accounted_of_schedule extended).finishedBorn returned member
    rw [shape] at started
    exact started.foreign (Nat.not_lt.mp notBefore) entry inEarly own

theorem failReadsItsRow_of_schedule (sound : initial.Sound)
    (scheduled : schedule validJson initial events = some pool) :
    FailReadsItsRow pool := by
  intro newer entry older shape store status next error id lease asked
  have trace := trace_of_schedule scheduled
  rw [shape] at trace
  obtain ⟨earlier, _, may⟩ := trace.cut
  rw [asked] at may
  obtain ⟨read, maxAttempts, seen, call, verdicted⟩ := may.2
  obtain ⟨reading, performed, own, readAsked⟩ := exists_performed_of_mem_ownPath seen
  exact ⟨reading, performed, read, maxAttempts, own, readAsked, call, verdicted,
    earlier.attempts_of_read sound performed readAsked⟩

end Guarantees

/-- Lease exclusivity, over every schedule and every point in it. -/
theorem lease_exclusivity (validJson : String → Bool) (initial : Database)
    (front back : List BrokerEvent) (early late : Broker) (sound : initial.Sound)
    (scheduled : schedule validJson initial front = some early)
    (extended : schedule validJson initial (front ++ back) = some late) :
    ClaimsExclude late ∧ EndsReportedOnce late ∧ StaleLeasesFail early late ∧
      FailReadsItsRow late :=
  ⟨claimsExclude_of_schedule sound extended,
    endsReportedOnce_of_schedule sound extended,
    staleLeasesFail_of_schedule sound scheduled extended,
    failReadsItsRow_of_schedule sound extended⟩

/-- A message is claimed and its claim expires. -/
def claimExpires : List BrokerEvent :=
  [.spawn (.enqueueBatch [⟨"s13-m1", none, "jobs", [104, 105], "{}"⟩]),
    .advance 0 { clock := 5 }, .advance 0 {}, .advance 0 {},
    .spawn (.claimBatchForTopic "jobs" second 1),
    .advance 1 { clock := 7 }, .advance 1 { uuid := "lease-1" },
    .advance 1 { order := ["s13-m1"] },
    .spawn .reclaimStale, .advance 2 { clock := 9 * second }] ++
  List.replicate 16 (.advance 2 {})

/-- The message is claimed again and acknowledged under both leases. -/
def bothAcknowledge : List BrokerEvent :=
  [.spawn (.claimBatchForTopic "jobs" second 1),
    .advance 3 { clock := 9 * second }, .advance 3 { uuid := "lease-2" },
    .advance 3 { order := ["s13-m1"] },
    .spawn (.delivered "s13-m1" "lease-1"),
    .advance 4 { clock := 9 * second }, .advance 4 {},
    .spawn (.delivered "s13-m1" "lease-2"),
    .advance 5 { clock := 9 * second }, .advance 5 {}, .advance 5 {}]

theorem lease_exclusivity_bothAcknowledge : ∃ early late,
    schedule (fun _ => true) Database.empty claimExpires = some early ∧
      schedule (fun _ => true) Database.empty (claimExpires ++ bothAcknowledge) = some late ∧
      ClaimsExclude late ∧ EndsReportedOnce late ∧ StaleLeasesFail early late ∧
      FailReadsItsRow late := by
  have defined : (schedule (fun _ => true) Database.empty claimExpires).isSome = true := by
    decide +kernel
  have goesOn : (schedule (fun _ => true) Database.empty
      (claimExpires ++ bothAcknowledge)).isSome = true := by
    decide +kernel
  obtain ⟨early, scheduled⟩ := Option.isSome_iff_exists.mp defined
  obtain ⟨late, extended⟩ := Option.isSome_iff_exists.mp goesOn
  exact ⟨early, late, scheduled, extended,
    lease_exclusivity _ _ _ _ _ _ Database.sound_empty scheduled extended⟩

end CanglingBroker
