import CanglingBroker.Database.Exclusivity
import CanglingBroker.Database.Lifecycle

/-!
# Delivery attempts

Every claim adds one to a row's attempts and nothing ever takes it back.  The
limit is consulted in `failed` only: the other statements that put a claimed row
back in the queue do not look at it, and a released claim is not refunded.  The
two results say what the limit still means under the steps that respect it.
-/

namespace CanglingBroker

open Foundation

/-! ## The limit -/

/-- The call gives up after `limit` attempts, if it is one that gives up. -/
def Call.UsesLimit (limit : Int) : Call → Prop
  | .failed _ _ _ maxAttempts => maxAttempts = limit
  | _ => True

instance (limit : Int) (call : Call) : Decidable (call.UsesLimit limit) := by
  cases call <;> unfold Call.UsesLimit <;> infer_instance

/-- The statement puts claimed rows back without a look at their attempts. -/
def Update.PutsBackUnchecked : Update → Prop
  | .reclaim _ | .release _ _ _ | .recover => True
  | _ => False

instance (statement : Update) : Decidable statement.PutsBackUnchecked := by
  cases statement <;> unfold Update.PutsBackUnchecked <;> infer_instance

/-- The rows an expiry, a release or a restart finds may be claimed once more. -/
def SparesLimit (limit : Int) (entry : Entry) : Prop :=
  match entry.request with
  | .sql (.update store statement) =>
    statement.PutsBackUnchecked → ∀ row ∈ (entry.before.messages store).rows,
        statement.guard [] row = true → row.attempts < limit
  | _ => True

instance (limit : Int) (entry : Entry) : Decidable (SparesLimit limit entry) := by
  unfold SparesLimit
  split <;> infer_instance

/-- The row has not used up its attempts, unless it is out of the queue. -/
def MessageRow.WithinLimit (limit : Int) (row : MessageRow) : Prop :=
  row.attempts ≤ limit ∧ (row.status = .pending → row.attempts < limit)

def Database.WithinLimit (limit : Int) (db : Database) : Prop :=
  ∀ store, ∀ row ∈ (db.messages store).rows, row.WithinLimit limit

namespace Trace

variable {initial db : Database} {history : List Entry} {limit : Int}

theorem withinLimit_update (sound : initial.Sound) {entry : Entry} {store : Store}
    {row : MessageRow} {statement : Update} {picked : List String}
    (earlier : Trace initial history entry.before)
    (may : entry.call.May (ownPath entry.thread history) entry.request)
    (uses : entry.call.UsesLimit limit) (spares : SparesLimit limit entry)
    (listed : row ∈ (entry.before.messages store).rows) (within : row.WithinLimit limit)
    (asked : entry.request = .sql (.update store statement))
    (matched : statement.guard picked row = true) :
    (statement.set row).WithinLimit limit := by
  unfold SparesLimit at spares
  rw [asked] at may spares
  cases statement with
  | dropPending | dropClaimed | deliver => exact ⟨within.1, fun pending => by cases pending⟩
  | reclaim | release | recover => exact ⟨within.1, fun _ => spares trivial row listed matched⟩
  | claimBatch | claimOne =>
    simp only [Update.guard, Bool.and_eq_true, decide_eq_true_eq] at matched
    exact ⟨within.2 matched.2, fun pending => by cases pending⟩
  | renew => exact within
  | fail _ _ _ _ lease =>
    refine ⟨within.1, fun pending => ?_⟩
    have step := earlier.lifeStep_of_fail sound listed matched may
    -- Only `failed` runs this statement, and only below its own limit.
    obtain ⟨read, maxAttempts, seen, call, verdicted⟩ := may.2
    rw [call] at uses step
    cases step with
    | putBack puts => exact uses ▸ puts.2
    | stays now =>
      rw [(MessageRow.held_iff.mp matched).2.2, pending] at now
      cases now
    | claimed _ _ now | droppedUnclaimed _ _ now =>
      rw [pending] at now
      cases now
    | ended ends =>
      rw [pending] at ends
      exact ends.elim

theorem withinLimit_act (sound : initial.Sound) (positive : 1 ≤ limit) {entry : Entry}
    (act : Act initial history entry)
    (uses : entry.call.UsesLimit limit) (spares : SparesLimit limit entry)
    (within : ∀ state ∈ visited history entry.before, state.WithinLimit limit) :
    entry.after.WithinLimit limit := by
  obtain ⟨earlier, effect, may⟩ := act
  have before : entry.before.WithinLimit limit := within _ (by simp [visited])
  intro store moved member
  rcases effect.rows_after member with ⟨row, listed, moves⟩ | created
  · have rowWithin := before store row listed
    cases moves with
    | same => exact rowWithin
    | updated _ _ asked matched =>
      exact earlier.withinLimit_update sound may uses spares listed rowWithin asked matched
    | delivered => exact ⟨rowWithin.1, fun pending => by cases pending⟩
  · cases created with
    | enqueued =>
      have unclaimed : (0 : Int) ≤ limit := by omega
      exact ⟨unclaimed, fun _ => positive⟩
    | copied _ asked =>
      rw [asked] at may
      obtain ⟨newer, listing, older, source, rfl, stored, _, rfl⟩ := earlier.copied_source may.2
      exact within listing.before (by simp [visited]) .control source stored

theorem withinLimit (sound : initial.Sound) (positive : 1 ≤ limit)
    (initially : initial.WithinLimit limit) (trace : Trace initial history db)
    (uses : ∀ entry ∈ history, entry.call.UsesLimit limit)
    (spares : ∀ entry ∈ history, SparesLimit limit entry) :
    ∀ state ∈ visited history db, state.WithinLimit limit := by
  induction trace with
  | start =>
    intro state member
    obtain rfl : state = initial := by simpa [visited] using member
    exact initially
  | @restart history db earlier ih =>
    intro state member
    rcases List.mem_cons.mp member with rfl | older
    · exact ih uses spares db (by simp [visited])
    · exact ih uses spares state (.tail _ older)
  | act entry earlier effect may ih =>
    have within :=
      ih
        (fun other member => uses other (.tail _ member))
        (fun other member => spares other (.tail _ member))
    intro state member
    rcases List.mem_cons.mp member with rfl | older
    · exact withinLimit_act sound positive ⟨earlier, effect, may⟩
        (uses entry (.head _)) (spares entry (.head _)) within
    · exact within state older

end Trace

/-- With a limit that every failing call uses, no row is claimed more often than
the limit allows in any run whose expiries, releases and restarts spare it. -/
theorem attempts_le_limit (validJson : String → Bool) (limit : Int) (initial : Database)
    (events : List BrokerEvent) (pool : Broker) (positive : 1 ≤ limit) (sound : initial.Sound)
    (initially : initial.WithinLimit limit)
    (scheduled : schedule validJson initial events = some pool)
    (uses : ∀ entry ∈ pool.history, entry.call.UsesLimit limit)
    (spares : ∀ entry ∈ pool.history, SparesLimit limit entry) :
    ∀ store, ∀ row ∈ (pool.shared.messages store).rows, row.attempts ≤ limit := by
  intro store row member
  have within := (trace_of_schedule scheduled).withinLimit sound positive initially uses spares
  exact (within pool.shared (by simp [visited]) store row member).1

/-- The message of `claimExpires` is claimed a second time. -/
def claimsAgain : List BrokerEvent :=
  claimExpires ++ [.spawn (.claimBatchForTopic "jobs" second 1),
      .advance 3 { clock := 9 * second }, .advance 3 { uuid := "lease-2" },
      .advance 3 { order := ["s13-m1"] }]

theorem attempts_le_limit_claimsAgain : ∃ pool,
    schedule (fun _ => true) Database.empty claimsAgain = some pool ∧
      ∀ store, ∀ row ∈ (pool.shared.messages store).rows, row.attempts ≤ 2 := by
  obtain ⟨pool, scheduled, checked⟩ : ∃ pool,
      schedule (fun _ => true) Database.empty claimsAgain = some pool ∧
        ∀ entry ∈ pool.history, entry.call.UsesLimit 2 ∧ SparesLimit 2 entry :=
    exists_some_of_check (by decide +kernel)
  refine ⟨pool, scheduled, ?_⟩
  refine attempts_le_limit _ 2 _ _ _ (by decide) Database.sound_empty ?_ scheduled
    (fun entry member => (checked entry member).1)
    (fun entry member => (checked entry member).2)
  intro store row member
  cases member

/-- With a limit of one attempt, an expired claim makes room for a second. -/
theorem attempts_exceed_limit : ∃ pool,
    schedule (fun _ => true) Database.empty claimsAgain = some pool ∧
      (∀ entry ∈ pool.history, entry.call.UsesLimit 1) ∧
      ∃ row ∈ (pool.shared.messages (.shard 13)).rows, ¬ row.attempts ≤ 1 :=
  exists_some_of_check (by decide +kernel)

/-! ## Claims and how they ended -/

def updatesTable (store : Store) (entry : Entry) : Bool :=
  match entry.request with
  | .sql (.update target _) => decide (target = store)
  | _ => false

def grantedIn (store : Store) (history : List Entry) : List (String × String) :=
  granted (history.filter (updatesTable store))

def releasesOf : (request : Action) → Reply request → List (String × String)
  | .sql (.update _ (.release _ id lease)), .ok rows => hit rows id lease
  | _, _ => []

/-- The claims of the table's rows that were handed back. -/
def releasedIn (store : Store) (history : List Entry) : List (String × String) :=
  (history.filter (updatesTable store)).flatMap fun entry =>
    releasesOf entry.request entry.answer

instance (table : MessageTable) (pair : String × String) :
    Decidable (MessageTable.Held table pair) :=
  inferInstanceAs (Decidable (∃ row ∈ table.rows, row.held pair.1 pair.2 = true))

/-- The claims of one message that are over, but not because they were handed
back. -/
def endedOtherwise (store : Store) (id : String) (history : List Entry)
    (db : Database) : List (String × String) :=
  (grantedIn store history).filter fun pair =>
    pair.1 = id ∧ pair ∉ releasedIn store history ∧ ¬ MessageTable.Held (db.messages store) pair

/-- The action of a `failed` call with the limit that marks the row failed. -/
structure GivesUp (entry : Entry) (store : Store) (row : MessageRow) (limit : Int) : Prop where
  call : ∃ id lease error, entry.call = .failed id lease error limit
  listed : row ∈ (entry.before.messages store).rows
  unmarked : row.status ≠ .failed
  marked :
    ∃ moved ∈ (entry.after.messages store).rows, moved.id = row.id ∧ moved.status = .failed

def Database.Unattempted (db : Database) : Prop :=
  ∀ store, ∀ row ∈ (db.messages store).rows, row.attempts = 0

theorem grantedIn_cons (store : Store) (entry : Entry) (history : List Entry) :
    grantedIn store (entry :: history) =
      (if updatesTable store entry then
        grantsOf entry.request entry.answer else []) ++ grantedIn store history := by
  unfold grantedIn
  rw [List.filter_cons]
  split
  · exact granted_cons entry _
  · rfl

theorem grantedIn_sublist (store : Store) (history : List Entry) :
    (grantedIn store history).Sublist (granted history) :=
  List.Sublist.flatMap List.filter_sublist _

variable {store : Store}

/-- What a claim changed it handed out. -/
theorem Effect.grantsOf_of_claimed {before after : Database} {request : Action}
    {answer : Reply request} {statement : Update} {lease : String} {row : MessageRow}
    (effect : Effect before request answer after) (asked : request = .sql (.update store statement))
    (claims : request.claimLease = some lease) (member : row ∈ (after.messages store).rows)
    (changed : row ∉ (before.messages store).rows) :
    (row.id, lease) ∈ grantsOf request answer := by
  subst asked
  cases effect with
  | updated _ _ picked =>
    rw [Database.setMessages_messages_self] at member
    obtain ⟨stored, listed, rfl⟩ := Update.mem_execute.mp member
    unfold Update.rewrite at changed ⊢
    split at changed
    · next matched =>
      have affected : statement.set stored ∈ (statement.execute picked (before.messages store)).1 :=
        Update.mem_affected.mpr ⟨stored, listed, matched, rfl⟩
      rw [if_pos matched]
      cases statement <;> cases claims <;>
        exact List.mem_map.mpr ⟨_, affected, rfl⟩
    · exact absurd listed changed
  | refused => exact absurd member changed
  | other _ _ _ harmless => exact harmless.elim

/-- An action leaves a row's attempts alone, or claims it and adds one. -/
theorem Effect.attempts_cases {entry : Entry} {row : MessageRow}
    (effect : Effect entry.before entry.request entry.answer entry.after)
    (member : row ∈ (entry.after.messages store).rows) :
    (∃ stored ∈ (entry.before.messages store).rows,
      row.id = stored.id ∧ row.attempts = stored.attempts) ∨
      (∃ stored ∈ (entry.before.messages store).rows,
        row.id = stored.id ∧ row.attempts = stored.attempts + 1 ∧ updatesTable store entry = true ∧
          ∃ lease, (row.id, lease) ∈ grantsOf entry.request entry.answer) ∨
      Created entry.request store row := by
  rcases effect.rows_after member with ⟨stored, listed, moves⟩ | created
  · have sameId : row.id = stored.id := congrArg Message.id moves.toMessage_eq
    by_cases changed : row ∈ (entry.before.messages store).rows
    · exact .inl ⟨row, changed, rfl, rfl⟩
    cases moves with
    | same => exact .inl ⟨row, listed, rfl, rfl⟩
    | delivered => exact .inl ⟨stored, listed, rfl, rfl⟩
    | updated statement _ asked =>
      have writes : updatesTable store entry = true := by
        unfold updatesTable
        rw [asked]
        exact decide_eq_true rfl
      cases statement with
      | claimBatch lease | claimOne lease =>
        refine .inr (.inl ⟨stored, listed, sameId, rfl, writes, lease, ?_⟩)
        exact effect.grantsOf_of_claimed asked (by rw [asked]; rfl) member changed
      | dropPending | dropClaimed | reclaim | release | renew | deliver | fail | recover =>
        exact .inl ⟨stored, listed, sameId, rfl⟩
  · exact .inr (.inr created)

namespace Trace

variable {initial db : Database} {history : List Entry}

theorem control_unattempted (unattempted : initial.Unattempted) (trace : Trace initial history db) :
    ∀ row ∈ (db.messages .control).rows, row.attempts = 0 := by
  induction trace with
  | start => exact unattempted .control
  | restart _ ih => exact ih
  | act _ _ effect may ih =>
    intro row member
    obtain ⟨stored, listed, rfl | rfl⟩ := effect.control_cases may.1 member
    · exact ih row listed
    · exact ih stored listed

/-- The attempts of a row are claims of the run. -/
theorem attempts_le_claims (unattempted : initial.Unattempted) (trace : Trace initial history db) :
    ∀ store, ∀ row ∈ (db.messages store).rows,
      row.attempts ≤ (grantedIn store history).countP (·.1 = row.id) := by
  induction trace with
  | start =>
    intro store row member
    rw [unattempted store row member]
    exact Int.natCast_nonneg _
  | restart _ ih => exact ih
  | @act history entry earlier effect may ih =>
    intro store row member
    rw [grantedIn_cons, List.countP_append]
    rcases effect.attempts_cases member with
      ⟨stored, listed, sameId, attempts⟩ |
        ⟨stored, listed, sameId, attempts, writes, lease, handedOut⟩ | created
    · have known := ih store stored listed
      rw [sameId]
      omega
    · have known := ih store stored listed
      have new : 1 ≤ (grantsOf entry.request entry.answer).countP (·.1 = row.id) :=
        List.one_le_countP_iff.mpr ⟨_, handedOut, by simp⟩
      rw [if_pos writes, attempts]
      rw [← sameId] at known
      omega
    · cases created with
      | enqueued => exact Int.natCast_nonneg _
      | copied _ asked =>
        rw [asked] at may
        obtain ⟨newer, listing, older, source, rfl, stored, _, rfl⟩ := earlier.copied_source may.2
        have zero := earlier.cut.earlier.control_unattempted unattempted source stored
        rw [zero]
        exact Int.natCast_nonneg _

/-- A message is given up only when its attempts have reached the limit, and
then no claim of it is left. -/
theorem givesUp_spec (sound : initial.Sound) {entry : Entry} {store : Store} {row : MessageRow}
    {limit : Int} (act : Act initial history entry)
    (gives : GivesUp entry store row limit) :
    limit ≤ row.attempts ∧
      ∀ lease, ¬ MessageTable.Held (entry.after.messages store) (row.id, lease) := by
  obtain ⟨⟨id, lease, error, call⟩, listed, unmarked, moved, member, sameId, status⟩ := gives
  obtain ⟨earlier, effect, may⟩ := act
  constructor
  · rcases effect.rows_after member with ⟨stored, storedListed, moves⟩ | created
    · obtain rfl : row = stored :=
        Table.eq_of_primary_eq _ listed storedListed
          (sameId.symm.trans (congrArg Message.id moves.toMessage_eq))
      have step := earlier.lifeStep sound listed may moves
      cases step with
      | stays same => exact absurd (same.symm.trans status) unmarked
      | claimed _ _ now | putBack _ _ now => rw [status] at now; cases now
      | ended ends =>
        rw [status] at ends
        obtain ⟨_, _, maxAttempts, _, asCall, reached⟩ := ends
        rw [call] at asCall
        cases asCall
        exact reached
      | droppedUnclaimed drops => rw [call] at drops; cases drops
    · cases created with
      | enqueued => cases status
      | copied _ asked =>
        have allowed := may.1
        rw [asked, call] at allowed
        exact nomatch allowed.1
  · rintro lease ⟨other, otherMember, held⟩
    obtain ⟨otherId, _, claimed⟩ := MessageRow.held_iff.mp held
    obtain rfl : other = moved :=
      Table.eq_of_primary_eq _ otherMember member (otherId.trans sameId.symm)
    rw [status] at claimed
    cases claimed

end Trace

/-- Claims of a message that is no longer claimed were handed back or ended
otherwise. -/
theorem countP_le_endedOtherwise {id : String} {history : List Entry} {db : Database}
    (distinct : (grantedIn store history).Nodup)
    (free : ∀ lease, ¬ MessageTable.Held (db.messages store) (id, lease)) :
    (grantedIn store history).countP (·.1 = id) ≤ (endedOtherwise store id history db).length +
        (releasedIn store history).countP (·.1 = id) := by
  have handedBack : (grantedIn store history).countP
      (fun pair => pair.1 = id ∧ pair ∈ releasedIn store history) ≤
        (releasedIn store history).countP (·.1 = id) := by
    rw [List.countP_eq_length_filter, List.countP_eq_length_filter]
    refine (List.subperm_of_subset (distinct.filter _) ?_).length_le
    intro pair member
    simp only [List.mem_filter, decide_eq_true_eq] at member ⊢
    exact ⟨member.2.2, member.2.1⟩
  have otherwise : (endedOtherwise store id history db).length = (grantedIn store history).countP
      (fun pair => pair.1 = id ∧ pair ∉ releasedIn store history) := by
    unfold endedOtherwise
    rw [← List.countP_eq_length_filter]
    refine List.countP_congr fun pair member => ?_
    simp only [decide_eq_true_eq]
    constructor
    · rintro ⟨same, kept, _⟩
      exact ⟨same, kept⟩
    · rintro ⟨rfl, kept⟩
      exact ⟨rfl, kept, free pair.2⟩
  rw [otherwise, List.countP_eq_countP_filter_add _ _
    (fun pair => decide (pair ∉ releasedIn store history)), List.countP_filter,
    List.countP_filter]
  refine Nat.add_le_add (le_of_eq ?_) (le_trans (le_of_eq ?_) handedBack)
  · simp
  · simp

/-- In every run from unclaimed messages, a message that `failed` gives up with
a limit has had that many claims, those handed back included; so if none was
handed back, that many of its claims ended otherwise. -/
theorem givenUp_after_attempts (validJson : String → Bool) (initial : Database)
    (events : List BrokerEvent) (pool : Broker) (sound : initial.Sound)
    (unattempted : initial.Unattempted)
    (scheduled : schedule validJson initial events = some pool) :
    ∀ newer entry older, pool.history = newer ++ entry :: older →
      ∀ store row limit, GivesUp entry store row limit →
        (endedOtherwise store row.id older entry.after).Nodup ∧ limit ≤
            (endedOtherwise store row.id older entry.after).length +
              (releasedIn store older).countP (·.1 = row.id) ∧
          ((∀ lease, (row.id, lease) ∉ releasedIn store older) →
            limit ≤ (endedOtherwise store row.id older entry.after).length) := by
  intro newer entry older shape store row limit gives
  have trace := trace_of_schedule scheduled
  rw [shape] at trace
  have earlier := trace.cut.earlier
  obtain ⟨reached, free⟩ := Trace.givesUp_spec sound trace.cut gives
  have claims := earlier.attempts_le_claims unattempted store row gives.listed
  have distinct : (grantedIn store older).Nodup :=
    (earlier.exclusive sound).distinct.sublist (grantedIn_sublist store older)
  have accounted := countP_le_endedOtherwise distinct free
  refine ⟨distinct.filter _, by omega, fun none => ?_⟩
  have noneReleased : (releasedIn store older).countP (·.1 = row.id) = 0 := by
    rw [List.countP_eq_zero]
    rintro ⟨id, lease⟩ member same
    obtain rfl : id = row.id := of_decide_eq_true same
    exact none lease member
  omega

/-- One message that is claimed, and given up at its first failure. -/
def failsAtOnce : List BrokerEvent :=
  [.spawn (.enqueueBatch [⟨"s13-m1", none, "jobs", [104, 105], "{}"⟩]),
    .advance 0 { clock := 5 }, .advance 0 {}, .advance 0 {},
    .spawn (.claimBatchForTopic "jobs" second 1),
    .advance 1 { clock := 7 }, .advance 1 { uuid := "lease-1" },
    .advance 1 { order := ["s13-m1"] },
    .spawn (.failed "s13-m1" "lease-1" "refused" 1),
    .advance 2 {}, .advance 2 { clock := 8 }, .advance 2 {}]

theorem givenUp_after_attempts_failsAtOnce : ∃ pool,
    schedule (fun _ => true) Database.empty failsAtOnce = some pool ∧
      ∀ newer entry older, pool.history = newer ++ entry :: older →
        ∀ store row limit, GivesUp entry store row limit →
          (endedOtherwise store row.id older entry.after).Nodup ∧ limit ≤
              (endedOtherwise store row.id older entry.after).length +
                (releasedIn store older).countP (·.1 = row.id) ∧
            ((∀ lease, (row.id, lease) ∉ releasedIn store older) →
              limit ≤ (endedOtherwise store row.id older entry.after).length) := by
  have defined : (schedule (fun _ => true) Database.empty failsAtOnce).isSome = true := by
    decide +kernel
  obtain ⟨pool, scheduled⟩ := Option.isSome_iff_exists.mp defined
  refine ⟨pool, scheduled, givenUp_after_attempts _ _ _ _ Database.sound_empty ?_ scheduled⟩
  intro store row member
  cases member

/-- One message that is claimed and handed back, claimed again, and given up at
its first failure. -/
def handedBackThenFails : List BrokerEvent :=
  [.spawn (.enqueueBatch [⟨"s13-m1", none, "jobs", [104, 105], "{}"⟩]),
    .advance 0 { clock := 5 }, .advance 0 {}, .advance 0 {},
    .spawn (.claimBatchForTopic "jobs" second 1),
    .advance 1 { clock := 7 }, .advance 1 { uuid := "lease-1" },
    .advance 1 { order := ["s13-m1"] },
    .spawn (.release "s13-m1" "lease-1"), .advance 2 { clock := 8 }, .advance 2 {},
    .spawn (.claimBatchForTopic "jobs" second 1),
    .advance 3 { clock := 9 }, .advance 3 { uuid := "lease-2" },
    .advance 3 { order := ["s13-m1"] },
    .spawn (.failed "s13-m1" "lease-2" "refused" 2),
    .advance 4 {}, .advance 4 { clock := 10 }, .advance 4 {}]

/-- A claim that was handed back has used up an attempt. -/
theorem givenUp_after_release : ∃ pool entry older row,
    schedule (fun _ => true) Database.empty handedBackThenFails = some pool ∧
      pool.history = entry :: older ∧ GivesUp entry (.shard 13) row 2 ∧
      ¬ 2 ≤ (endedOtherwise (.shard 13) row.id older entry.after).length := by
  have computed : (schedule (fun _ => true) Database.empty handedBackThenFails).any (fun pool =>
      match pool.history with
      | [] => false
      | entry :: older =>
        decide (entry.call = .failed "s13-m1" "lease-2" "refused" 2) &&
          (entry.before.messages (.shard 13)).rows.any fun row =>
            decide (row.status ≠ .failed) &&
              ((entry.after.messages (.shard 13)).rows.any fun moved =>
                decide (moved.id = row.id ∧ moved.status = .failed)) &&
              decide (¬ 2 ≤ (endedOtherwise (.shard 13) row.id older entry.after).length)) =
      true := by
    decide +kernel
  obtain ⟨pool, scheduled, checked⟩ := (Option.any_eq_true _ _).mp computed
  cases shape : pool.history with
  | nil =>
    rw [shape] at checked
    cases checked
  | cons entry older =>
    simp only [shape, Bool.and_eq_true, List.any_eq_true, decide_eq_true_eq] at checked
    obtain ⟨call, row, listed, ⟨unmarked, marked⟩, few⟩ := checked
    exact
      ⟨pool, entry, older, row, scheduled, shape, ⟨⟨_, _, _, call⟩, listed, unmarked, marked⟩, few⟩

end CanglingBroker
