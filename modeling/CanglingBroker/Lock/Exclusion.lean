import CanglingBroker.Lock.Store

/-!
# Mutual exclusion of the locks

A row keeps every other owner out, so the lock is safe as long as a row is only deleted by
its owner or after it has expired.  Expiry compares texts, and a lease that runs into the
year 10000 has a text that sorts before all others.
-/

namespace CanglingBroker

open Foundation

def LockCall.ttl? : LockCall → Option Int
  | .acquire _ _ ttl | .renew _ _ ttl => some ttl
  | _ => none

/-- Where the instants of a statement come from: they were read from the clock
earlier in the call, or computed from such a reading. -/
def LockCall.May (call : LockCall) (path : List (Exchange LockAction LockReply)) :
    LockAction → Prop
  | .deleteExpired _ now => (⟨.now, now⟩ : Exchange LockAction LockReply) ∈ path
  | .insert _ _ expireAt _ | .extend _ _ expireAt =>
    ∃ (ttl : Int) (now : Nat), call.ttl? = some ttl ∧
      (⟨.now, now⟩ : Exchange LockAction LockReply) ∈ path ∧
      expiry now ttl = some expireAt
  | _ => True

/-- The lock a statement gave to an owner, and until when. -/
def leaseSet : Exchange LockAction LockReply → Option (String × String × Nat)
  | ⟨.insert lockKey owner expireAt _, .ok affected⟩
  | ⟨.extend lockKey owner expireAt, .ok affected⟩ =>
    if 0 < (show Nat from affected) then some (lockKey, owner, expireAt) else none
  | _ => none

def acquiredBy : Exchange LockAction LockReply → Option (String × String)
  | ⟨.insert lockKey owner _ _, .ok affected⟩ =>
    if 0 < (show Nat from affected) then some (lockKey, owner) else none
  | _ => none

def releasedBy : Exchange LockAction LockReply → Option (String × String)
  | ⟨.deleteOwned lockKey owner, .ok affected⟩ =>
    if 0 < (show Nat from affected) then some (lockKey, owner) else none
  | _ => none

def LockCall.Did (call : LockCall) (path : List (Exchange LockAction LockReply))
    (outcome : LockOutcome) : Prop :=
  ∀ lockKey owner ttl, call = .acquire lockKey owner ttl →
    outcome = .answered true → ∃ exchange ∈ path, acquiredBy exchange = some (lockKey, owner)

/-! ## What one action does -/

section Perform

variable {choice : LockChoice} {before after : LockState} {request : LockAction}
  {answer : LockReply request}

theorem clock_of_perform (performed : lockPerform choice before request = some (answer, after)) :
    before.clock ≤ after.clock ∧ ∀ now : Nat,
        (⟨request, answer⟩ : Exchange LockAction LockReply) = ⟨.now, now⟩ → now = after.clock := by
  unfold lockPerform at performed
  split at performed
  · cases performed
  · next notBack =>
    have forward : before.clock ≤ choice.clock := Nat.le_of_not_lt notBack
    dsimp only at performed
    cases request with
    | now =>
      cases performed
      refine ⟨forward, fun now same => ?_⟩
      cases same
      rfl
    | deleteExpired | extend | deleteOwned | selectExpiry | selectAll =>
      dsimp only at performed
      split at performed <;> cases performed <;> exact ⟨forward, nofun⟩
    | insert =>
      dsimp only at performed
      split at performed
      · cases performed
        exact ⟨forward, nofun⟩
      · split at performed <;> cases performed <;> exact ⟨forward, nofun⟩

/-- What a performed action did to the table: a statement that failed or found
nothing to do changes no row and sets no lease. -/
inductive LockEffect (before after : LockState) :
    (request : LockAction) → LockReply request → Prop
  | unchanged {request : LockAction} {answer : LockReply request}
      (same : after.locks = before.locks) (unset : leaseSet ⟨request, answer⟩ = none)
      (kept : releasedBy ⟨request, answer⟩ = none) : LockEffect before after request answer
  | expired (lockKey : Option String) (now affected : Nat)
      (locks : after.locks = before.locks.delete (LockRow.stale lockKey now)) :
      LockEffect before after (.deleteExpired lockKey now) (.ok affected)
  | inserted (new : LockRow) (free : ¬ before.locks.Conflicts new)
      (locks : after.locks = before.locks.insertOrIgnore new) :
      LockEffect before after (.insert new.lockKey new.owner new.expireAt new.createTime)
        (.ok (1 : Nat))
  | extended (lockKey owner : String) (expireAt : Nat)
      (locks :
        after.locks = before.locks.update (LockRow.heldBy lockKey owner) (extendTo expireAt)) :
      LockEffect before after (.extend lockKey owner expireAt)
        (.ok (before.locks.rows.countP (LockRow.heldBy lockKey owner)))
  | released (lockKey owner : String)
      (locks : after.locks = before.locks.delete (LockRow.heldBy lockKey owner)) :
      LockEffect before after (.deleteOwned lockKey owner)
        (.ok (before.locks.rows.countP (LockRow.heldBy lockKey owner)))

theorem lockEffect_of_perform
    (performed : lockPerform choice before request = some (answer, after)) :
    LockEffect before after request answer := by
  unfold lockPerform at performed
  split at performed
  · cases performed
  · dsimp only at performed
    cases request with
    | now =>
      cases performed
      exact .unchanged rfl rfl rfl
    | insert lockKey owner expireAt createTime =>
      dsimp only at performed
      split at performed
      · cases performed
        exact .unchanged rfl rfl rfl
      · split at performed
        · cases performed
          exact .unchanged rfl rfl rfl
        · next free =>
          cases performed
          exact .inserted _ free rfl
    | deleteExpired lockKey now =>
      dsimp only at performed
      split at performed <;> cases performed
      · exact .unchanged rfl rfl rfl
      · exact .expired lockKey now _ rfl
    | extend lockKey owner expireAt =>
      dsimp only at performed
      split at performed <;> cases performed
      · exact .unchanged rfl rfl rfl
      · exact .extended lockKey owner expireAt rfl
    | deleteOwned lockKey owner =>
      dsimp only at performed
      split at performed <;> cases performed
      · exact .unchanged rfl rfl rfl
      · exact .released lockKey owner rfl
    | selectExpiry | selectAll =>
      dsimp only at performed
      split at performed <;> cases performed <;> exact .unchanged rfl rfl rfl

theorem countP_pos_of_mem {test : LockRow → Bool} {rows : List LockRow} {row : LockRow}
    (member : row ∈ rows) (passes : test row = true) : 0 < rows.countP test :=
  List.countP_pos_iff.mpr ⟨row, member, passes⟩

section

variable (performed : lockPerform choice before request = some (answer, after))

include performed

/-- A row stays as it is, unless it counts as expired, or its owner gives it back
or sets its lease again. -/
theorem row_kept
    {row : LockRow} (member : row ∈ before.locks.rows) :
    row ∈ after.locks.rows ∨
      (∃ lockKey now, request = .deleteExpired lockKey now ∧ row.expired now = true) ∨
      releasedBy ⟨request, answer⟩ = some (row.lockKey, row.owner) ∨
      ∃ expireAt, leaseSet ⟨request, answer⟩ = some (row.lockKey, row.owner, expireAt) := by
  cases lockEffect_of_perform performed with
  | unchanged same => exact .inl (same ▸ member)
  | expired lockKey now affected locks =>
    by_cases gone : row.stale lockKey now = true
    · have expired : row.expired now = true := by
        rw [LockRow.stale, Bool.and_eq_true] at gone
        exact gone.2
      exact .inr (.inl ⟨lockKey, now, rfl, expired⟩)
    · refine .inl (locks ▸ Table.mem_delete.mpr ⟨member, ?_⟩)
      simpa using gone
  | inserted new free locks => exact .inl (locks ▸ Table.mem_insertOrIgnore_of_mem member)
  | extended lockKey owner expireAt locks =>
    by_cases mine : row.heldBy lockKey owner = true
    · have affected := countP_pos_of_mem member mine
      rw [LockRow.heldBy, decide_eq_true_eq] at mine
      refine .inr (.inr (.inr ⟨expireAt, ?_⟩))
      rw [leaseSet, if_pos affected, mine.1, mine.2]
    · refine .inl (locks ▸ Table.mem_update.mpr ⟨row, member, ?_⟩)
      rw [Table.rewrite, if_neg mine]
  | released lockKey owner locks =>
    by_cases mine : row.heldBy lockKey owner = true
    · have affected := countP_pos_of_mem member mine
      rw [LockRow.heldBy, decide_eq_true_eq] at mine
      refine .inr (.inr (.inl ?_))
      rw [releasedBy, if_pos affected, mine.1, mine.2]
    · refine .inl (locks ▸ Table.mem_delete.mpr ⟨member, ?_⟩)
      simpa using mine

theorem row_of_leaseSet {lockKey owner : String} {expireAt : Nat}
    (granted : leaseSet ⟨request, answer⟩ = some (lockKey, owner, expireAt)) :
    ∃ row ∈ after.locks.rows, row.lockKey = lockKey ∧ row.owner = owner ∧
      row.expireAt = expireAt := by
  cases lockEffect_of_perform performed with
  | unchanged _ unset =>
    rw [unset] at granted
    cases granted
  | expired | released => cases granted
  | inserted new free locks =>
    cases granted
    refine ⟨new, ?_, rfl, rfl, rfl⟩
    rw [locks, Table.insertOrIgnore_rows, if_neg free]
    exact List.mem_append_right _ (.head _)
  | extended lockKey owner expireAt locks =>
    rw [leaseSet] at granted
    split at granted
    · next stored =>
      cases granted
      obtain ⟨row, member, mine⟩ := List.countP_pos_iff.mp stored
      have owned := mine
      rw [LockRow.heldBy, decide_eq_true_eq] at owned
      refine ⟨{ row with expireAt := expireAt }, ?_, owned.1, owned.2, rfl⟩
      refine locks ▸ Table.mem_update.mpr ⟨row, member, ?_⟩
      rw [Table.rewrite, if_pos mine]
      rfl
    · cases granted

theorem free_of_acquired
    {lockKey owner : String} (acquired : acquiredBy ⟨request, answer⟩ = some (lockKey, owner)) :
    ∀ row ∈ before.locks.rows, row.lockKey ≠ lockKey := by
  cases lockEffect_of_perform performed with
  | unchanged _ unset =>
    unfold acquiredBy at acquired
    split at acquired
    · next same =>
      cases same
      split at acquired
      · next stored =>
        rw [leaseSet, if_pos stored] at unset
        cases unset
      · cases acquired
    · cases acquired
  | expired | extended | released => cases acquired
  | inserted new free =>
    cases acquired
    intro row member same
    exact free ⟨row, member, .inl same⟩

end

end Perform

/-! ## What a call asks for -/

variable {path : List (Exchange LockAction LockReply)}

namespace LockCall

/-- The outcomes of a call, and the answers they rest on. -/
inductive Returns : LockCall → List (Exchange LockAction LockReply) → LockOutcome → Prop
  | nothing {call path outcome} (unanswered : ∀ value, outcome ≠ .answered value)
      (returned : outcome ≠ .panicked) (settled : path.head?.map (·.request) ≠ some .now) :
      Returns call path outcome
  | panicked {call path now ttl} (valid : ¬ call.Invalid) (timed : call.ttl? = some ttl)
      (lost : expiry now ttl = none) : Returns call (⟨.now, now⟩ :: path) .panicked
  | acquired {path lockKey owner ttl expireAt createTime} {affected : Nat} :
      Returns (.acquire lockKey owner ttl)
        (⟨.insert lockKey owner expireAt createTime, .ok affected⟩ :: path)
        (.answered (0 < affected))
  | renewed {path lockKey owner ttl expireAt} {affected : Nat} :
      Returns (.renew lockKey owner ttl) (⟨.extend lockKey owner expireAt, .ok affected⟩ :: path)
        (.answered (0 < affected))
  | released {path lockKey owner} {affected : Nat} :
      Returns (.release lockKey owner) (⟨.deleteOwned lockKey owner, .ok affected⟩ :: path)
        (.answered (0 < affected))
  | looked {path lockKey value} : Returns (.isLocked lockKey) path (.answered value)

theorem returns_acquire {lockKey owner : String} {ttl : Int}
    (valid : ¬ (acquire lockKey owner ttl).Invalid) :
    Program.Ensures (acquire lockKey owner ttl).May (acquire lockKey owner ttl).Returns []
      (LockStore.acquire lockKey owner ttl) := by
  refine ⟨trivial, fun now => ⟨.head _, ?_⟩⟩
  rintro (_ | _)
  · exact .nothing (by simp) (by simp) (by simp)
  · refine ⟨trivial, fun later => ?_⟩
    simp only [Program.andThen]
    split
    · next lost => exact .panicked valid rfl lost
    · next expireAt computed =>
      refine ⟨trivial, fun created => ⟨⟨ttl, later, rfl, .tail _ (.head _), computed⟩, ?_⟩⟩
      rintro (_ | _)
      · exact .nothing (by rintro _ ⟨⟩) (by rintro ⟨⟩) (by simp)
      · exact .acquired

theorem returns_renew {lockKey owner : String} {ttl : Int}
    (valid : ¬ (renew lockKey owner ttl).Invalid) :
    Program.Ensures (renew lockKey owner ttl).May (renew lockKey owner ttl).Returns []
      (LockStore.renew lockKey owner ttl) := by
  refine ⟨trivial, fun now => ?_⟩
  simp only [Program.andThen]
  split
  · next lost => exact .panicked valid rfl lost
  · next expireAt computed =>
    refine ⟨⟨ttl, now, rfl, .head _, computed⟩, ?_⟩
    rintro (_ | _)
    · exact .nothing (by rintro _ ⟨⟩) (by rintro ⟨⟩) (by simp)
    · exact .renewed

theorem returns_isLocked (lockKey : String) :
    Program.Ensures (isLocked lockKey).May (isLocked lockKey).Returns []
      (LockStore.isLocked lockKey) := by
  refine ⟨trivial, fun selected => ?_⟩
  simp only [Program.andThen]
  split
  · exact .nothing (by simp) (by simp) (by simp)
  · exact .looked
  · split
    · exact .looked
    · exact ⟨trivial, fun now => .looked⟩

theorem returns_list : Program.Ensures list.May list.Returns [] LockStore.list := by
  refine ⟨trivial, fun now => ⟨.head _, ?_⟩⟩
  rintro (_ | _)
  · exact .nothing (by simp) (by simp) (by simp)
  · refine ⟨trivial, ?_⟩
    rintro (_ | _) <;> exact .nothing (by simp) (by simp) (by simp)

/-- Every call reads the instants it uses from the clock. -/
theorem returns_program (call : LockCall) :
    Program.Ensures call.May call.Returns [] call.program := by
  unfold program
  split
  · exact .nothing (by simp) (by simp) (by simp)
  · next valid =>
    cases call with
    | acquire => exact returns_acquire valid
    | renew => exact returns_renew valid
    | release =>
      refine ⟨trivial, ?_⟩
      rintro (_ | _)
      · exact .nothing (by rintro _ ⟨⟩) (by rintro ⟨⟩) (by simp)
      · exact .released
    | isLocked lockKey => exact returns_isLocked lockKey
    | purgeExpired =>
      refine ⟨trivial, fun now => ⟨.head _, ?_⟩⟩
      rintro (_ | _) <;> exact .nothing (by rintro _ ⟨⟩) (by rintro ⟨⟩) (by simp)
    | list => exact returns_list

theorem Returns.did {call : LockCall} {outcome : LockOutcome}
    (returned : call.Returns path outcome) : call.Did path outcome := by
  intro lockKey owner ttl called accepted
  cases returned with
  | nothing unanswered => exact absurd accepted (unanswered true)
  | panicked => cases accepted
  | acquired =>
    cases called
    exact ⟨_, .head _, if_pos (of_decide_eq_true (LockOutcome.answered.inj accepted))⟩
  | renewed | released | looked => cases called

/-- An acquire that succeeds has inserted its row. -/
theorem ensures_program (call : LockCall) : Program.Ensures call.May call.Did [] call.program :=
  call.returns_program.weaken fun _ _ => Returns.did

end LockCall

/-! ## Whole runs -/

/-- The actions of a run of the lock service, and the state they lead to. -/
abbrev LockTrace (initial : LockState) (history : List LockEntry) (current : LockState) : Prop :=
  Pool.Trace lockComponent LockCall.May initial history current

section Runs

variable {initial current : LockState} {history : List LockEntry} {now : Nat}

theorem clock_of_mem (trace : LockTrace initial history current) :
    ∀ entry ∈ history, entry.after.clock ≤ current.clock := by
  induction trace with
  | start =>
    intro entry member
    cases member
  | crash _ ih => exact ih
  | act _ _ _ performed _ ih =>
    intro entry member
    rcases List.mem_cons.mp member with rfl | older
    · exact Nat.le_refl _
    · have before := ih entry older
      have passes := (clock_of_perform performed).1
      exact Nat.le_trans before passes

theorem read_le_clock (trace : LockTrace initial history current) {thread : Nat}
    (read : (⟨.now, now⟩ : Exchange LockAction LockReply) ∈ ownPath thread history) :
    now ≤ current.clock := by
  obtain ⟨entry, member, _, same⟩ := exists_performed_of_mem_ownPath read
  obtain ⟨newer, older, rfl⟩ := List.append_of_mem member
  obtain ⟨_, ⟨choice, performed⟩, _⟩ := trace.cut
  have present := (clock_of_perform performed).2 now same
  have passed := clock_of_mem trace entry member
  omega

theorem expired_spec {row : LockRow} (readable : row.expireAt < yearTenThousand)
    (expired : row.expired now = true) : row.expireAt ≤ now := by
  rw [LockRow.expired, decide_eq_true_eq] at expired
  by_contra running
  have later : now < row.expireAt := Nat.lt_of_not_le running
  have ordered := (rfc3339_lt_iff (Nat.lt_trans later readable) readable).mpr later
  exact expired ordered

theorem expiry_eq {expireAt : Nat} {ttl : Int} (computed : expiry now ttl = some expireAt) :
    expireAt = now + ttl.toNat * nanosPerSecond := by
  unfold expiry at computed
  split at computed
  · cases computed
  · dsimp only at computed
    split at computed
    · cases computed
    · exact (Option.some.inj computed).symm

end Runs

/-- The lease a call of the lock service asks for at this instant ends before the
year 10000. -/
def LockEntry.Readable (entry : LockEntry) : Prop :=
  ∀ ttl, entry.call.ttl? = some ttl →
    entry.after.clock + ttl.toNat * nanosPerSecond < yearTenThousand

section Exclusion

variable {initial current : LockState} {setter : LockEntry}
  {newer older : List LockEntry} {lockKey owner : String} {expireAt : Nat}

/-- A lease that is set and readable ends before the year 10000. -/
theorem expireAt_of_readable (trace : LockTrace initial (newer ++ setter :: older) current)
    (granted : leaseSet setter.exchange = some (lockKey, owner, expireAt))
    (readable : setter.Readable) : expireAt < yearTenThousand := by
  obtain ⟨earlier, ⟨choice, performed⟩, allowed⟩ := trace.cut
  have computed : ∃ (ttl : Int) (now : Nat), setter.call.ttl? = some ttl ∧
      (⟨.now, now⟩ : Exchange LockAction LockReply) ∈ ownPath setter.thread older ∧
      expiry now ttl = some expireAt := by
    obtain ⟨thread, call, request, answer, before, after⟩ := setter
    unfold leaseSet Performed.exchange at granted
    split at granted
    · next same =>
      cases same
      split at granted <;> cases granted
      exact allowed
    · next same =>
      cases same
      split at granted <;> cases granted
      exact allowed
    · cases granted
  obtain ⟨ttl, now, asked, read, result⟩ := computed
  have notFuture := read_le_clock earlier read
  have passes := (clock_of_perform performed).1
  have inRange := readable ttl asked
  have ends := expiry_eq result
  omega

/-- From the statement that sets a lease on, the row stays until the lease has
ended, its owner gives it back or sets it again. -/
theorem lease_stands (trace : LockTrace initial (newer ++ setter :: older) current)
    (granted : leaseSet setter.exchange = some (lockKey, owner, expireAt))
    (readable : setter.Readable)
    (unreleased : ∀ entry ∈ newer, releasedBy entry.exchange ≠ some (lockKey, owner))
    (last : ∀ entry ∈ newer, ∀ later, leaseSet entry.exchange ≠ some (lockKey, owner, later)) :
    (∃ row ∈ current.locks.rows, row.lockKey = lockKey ∧ row.owner = owner ∧
        row.expireAt = expireAt) ∨
      expireAt ≤ current.clock := by
  have inRange := expireAt_of_readable trace granted readable
  obtain ⟨_, ⟨choice, performed⟩, _⟩ := trace.cut
  -- Everything that happened since the lease was set is the invariant's second
  -- argument, so the two conditions are used for what has happened so far.
  have standing :=
    trace.since
      (fun state since =>
        (∀ entry ∈ since, releasedBy entry.exchange ≠ some (lockKey, owner)) →
          (∀ entry ∈ since, ∀ later, leaseSet entry.exchange ≠ some (lockKey, owner, later)) →
            (∃ row ∈ state.locks.rows, row.lockKey = lockKey ∧
                row.owner = owner ∧ row.expireAt = expireAt) ∨
              expireAt ≤ state.clock)
      (fun _ _ => .inl (row_of_leaseSet performed granted))
      (fun _ _ held => held) ?_
  · exact standing unreleased last
  · intro next since choice earlier held performedNext allowed noRelease noChange
    have passes := (clock_of_perform performedNext).1
    rcases held (fun entry member => noRelease entry (.tail _ member))
        (fun entry member => noChange entry (.tail _ member)) with
      ⟨row, member, rfl, rfl, rfl⟩ | ended
    · rcases row_kept performedNext member with
        kept | ⟨name, now, asked, expired⟩ | released | ⟨later, changed⟩
      · exact .inl ⟨row, kept, rfl, rfl, rfl⟩
      · rw [asked] at allowed
        have notFuture := read_le_clock earlier allowed
        have ended := expired_spec inRange expired
        exact .inr (by omega)
      · exact absurd released (noRelease next (.head _))
      · exact absurd changed (noChange next (.head _) later)
    · exact .inr (Nat.le_trans ended passes)

end Exclusion

/-- A lock that was given to an owner until some instant, and since then neither
given back nor set again by the owner, is given to no one before that instant. -/
def LockService.Excludes (service : LockService) : Prop :=
  ∀ (newer middle older : List LockEntry) (taken setter : LockEntry)
    (lockKey owner other : String) (expireAt : Nat),
    service.history = newer ++ taken :: (middle ++ setter :: older) →
      leaseSet setter.exchange = some (lockKey, owner, expireAt) →
        (∀ entry ∈ middle, releasedBy entry.exchange ≠ some (lockKey, owner)) →
          (∀ entry ∈ middle, ∀ later, leaseSet entry.exchange ≠ some (lockKey, owner, later)) →
            acquiredBy taken.exchange = some (lockKey, other) → expireAt ≤ taken.before.clock

/-- An acquire that returned true is in the history as the insert of its row. -/
def LockService.Records (service : LockService) : Prop :=
  ∀ finished ∈ service.finished, ∀ lockKey owner ttl, finished.call = .acquire lockKey owner ttl →
      finished.result = .answered true → ∃ entry ∈ service.history, entry.thread = finished.thread ∧
          acquiredBy entry.exchange = some (lockKey, owner)

/-- In every run of the lock service, from any table and with a clock that never
goes back, in which every lease asked for ends before the year 10000, the locks
exclude each other; and every acquire that returned true is one of the inserts
that this is about. -/
theorem lock_exclusion (initial : LockState) (events : List LockEvent) (service : LockService)
    (scheduled : lockSchedule initial events = some service)
    (readable : ∀ entry ∈ service.history, LockEntry.Readable entry) :
    service.Excludes ∧ service.Records := by
  have trace : LockTrace initial service.history service.shared :=
    Pool.trace_of_replay LockCall.ensures_program scheduled
  constructor
  · intro newer middle older taken setter lockKey owner other expireAt shape granted
      unreleased last acquired
    rw [shape] at trace readable
    obtain ⟨earlier, ⟨choice, performed⟩, _⟩ := trace.cut
    have free := free_of_acquired performed acquired
    have setterReadable : setter.Readable := readable setter (by simp)
    rcases lease_stands earlier granted setterReadable unreleased last with
      ⟨row, member, sameKey, _, _⟩ | ended
    · exact absurd sameKey (free row member)
    · exact ended
  · intro finished member lockKey owner ttl called accepted
    have accounted := Pool.accounted_replay LockCall.ensures_program scheduled
    obtain ⟨exchange, onPath, acquired⟩ :=
      accounted.finished finished member lockKey owner ttl called accepted
    obtain ⟨entry, performed, own, same⟩ := exists_performed_of_mem_ownPath onPath
    exact ⟨entry, performed, own, same ▸ acquired⟩

def noLocks : LockState where
  locks := Table.empty
  clock := daysBeforeYear 2026 * secondsPerDay * nanosPerSecond

/-- One acquire, run to its end some seconds after the start. -/
def acquireAt (thread seconds : Nat) (lockKey owner : String) (ttl : Int) :
    List LockEvent :=
  .spawn (.acquire lockKey owner ttl) ::
    List.replicate 5 (.advance thread { clock := noLocks.clock + seconds * nanosPerSecond })

def takesTurns : List LockEvent :=
  acquireAt 0 0 "k" "o1" 10 ++ acquireAt 1 11 "k" "o2" 10

theorem lock_exclusion_takesTurns : ∃ service, lockSchedule noLocks takesTurns = some service ∧
    (service.finished.map fun finished => (finished.call, finished.result)) =
      [(.acquire "k" "o2" 10, .answered true), (.acquire "k" "o1" 10, .answered true)] ∧
    service.Excludes ∧ service.Records := by
  obtain ⟨service, scheduled, results, readable⟩ : ∃ service,
      lockSchedule noLocks takesTurns = some service ∧
        (service.finished.map fun finished => (finished.call, finished.result)) =
          [(.acquire "k" "o2" 10, .answered true), (.acquire "k" "o1" 10, .answered true)] ∧
        ∀ entry ∈ service.history, ∀ ttl ∈ entry.call.ttl?,
          entry.after.clock + ttl.toNat * nanosPerSecond < yearTenThousand :=
    exists_some_of_check (by decide +kernel)
  exact ⟨service, scheduled, results, lock_exclusion _ _ _ scheduled readable⟩

/-- One owner takes a lock for nine thousand years, and another takes it a second
later. -/
def takesForever : List LockEvent :=
  acquireAt 0 0 "k" "o1" 300000000000 ++ acquireAt 1 1 "k" "o2" 10

/-- The last action takes the lock `k` before the lease that was set five actions ago
ends, and the actions between give nothing back. -/
def overtakes : List LockEntry → Bool
  | taken :: first :: second :: third :: fourth :: setter :: _ =>
    decide
        (leaseSet setter.exchange =
          some ("k", "o1", noLocks.clock + 300000000000 * nanosPerSecond)) &&
      decide (acquiredBy taken.exchange = some ("k", "o2")) &&
      decide (taken.before.clock < noLocks.clock + 300000000000 * nanosPerSecond) &&
      [first, second, third, fourth].all fun entry =>
        decide (releasedBy entry.exchange = none ∧ leaseSet entry.exchange = none)
  | _ => false

/-- The text of the first lease has a signed year, so it counts as expired at
once. -/
theorem lock_not_exclusive : ∃ service, lockSchedule noLocks takesForever = some service ∧
    (service.finished.map fun finished => (finished.call, finished.result)) =
      [(.acquire "k" "o2" 10, .answered true), (.acquire "k" "o1" 300000000000, .answered true)] ∧
    ¬ service.Excludes := by
  obtain ⟨service, scheduled, results, reached⟩ : ∃ service,
      lockSchedule noLocks takesForever = some service ∧
        (service.finished.map fun finished => (finished.call, finished.result)) =
          [(.acquire "k" "o2" 10, .answered true),
            (.acquire "k" "o1" 300000000000, .answered true)] ∧
        overtakes service.history = true :=
    exists_some_of_check (by decide +kernel)
  refine ⟨service, scheduled, results, fun excludes => ?_⟩
  unfold overtakes at reached
  split at reached
  · next taken first second third fourth setter older shape =>
    simp only [Bool.and_eq_true, decide_eq_true_eq, List.all_eq_true] at reached
    obtain ⟨⟨⟨granted, acquired⟩, early⟩, quiet⟩ := reached
    have ends :=
      excludes [] [first, second, third, fourth] older taken setter "k" "o1" "o2" _
        shape granted
        (fun entry member => by rw [(quiet entry member).1]; simp)
        (fun entry member later => by rw [(quiet entry member).2]; simp) acquired
    exact absurd early (Nat.not_lt.mpr ends)
  · cases reached

end CanglingBroker
