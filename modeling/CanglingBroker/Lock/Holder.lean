import CanglingBroker.Foundation.Alone
import CanglingBroker.Lock.Exclusion

/-!
# Who may renew and release a lock

The holder of a lock is the owner of the last lease that was set and not given back since,
until it ends.  A row stays after its lease has ended until a call deletes it, and the
statements that extend and give back a lock look at its owner only.
-/

namespace CanglingBroker

open Foundation

/-- The owner of the last lease of a lock and the instant it ends, unless the lock
was given back since.  The history has its newest action first. -/
def leaseHolder (lockKey : String) : List LockEntry → Option (String × Nat)
  | [] => none
  | entry :: older =>
    match leaseSet entry.exchange with
    | some (name, owner, expireAt) =>
      if name = lockKey then some (owner, expireAt) else leaseHolder lockKey older
    | none =>
      if (releasedBy entry.exchange).any fun given => decide (given.1 = lockKey) then
        none
      else
        leaseHolder lockKey older

/-- The owner holds the lock at the instant, going by what has happened. -/
def HoldsAt (history : List LockEntry) (lockKey owner : String) (now : Nat) : Prop :=
  ∃ expireAt, leaseHolder lockKey history = some (owner, expireAt) ∧ now < expireAt

namespace LockState

/-- A statement of a call that runs at one instant, and succeeds. -/
def answersAt (now : Nat) (state : LockState) (request : LockAction)
    (answer : LockReply request) (after : LockState) : Prop :=
  lockPerform { clock := now } state request = some (answer, after)

/-- `is_locked` would answer true at the instant. -/
def LockedAt (state : LockState) (lockKey : String) (now : Nat) : Prop :=
  ∃ after, Program.Ran (answersAt now) (LockStore.isLocked lockKey) state (.answered true) after

def OwnedBy (state : LockState) (lockKey owner : String) : Prop :=
  ∃ row ∈ state.locks.rows, row.lockKey = lockKey ∧ row.owner = owner

/-- A row of this owner is still there although its lease has ended. -/
def LeftBehind (state : LockState) (lockKey owner : String) (now : Nat) : Prop :=
  ∃ row ∈ state.locks.rows, row.lockKey = lockKey ∧ row.owner = owner ∧ row.expireAt ≤ now

end LockState

/-- The lock and the owner of a call that only the holder may make. -/
def LockCall.holders : LockCall → Option (String × String)
  | .renew lockKey owner _ | .release lockKey owner => some (lockKey, owner)
  | _ => none

/-- What the statement of such a call says about an owner and a lock. -/
def decided : Exchange LockAction LockReply → Option (String × String × Bool)
  | ⟨.extend lockKey owner _, .ok affected⟩
  | ⟨.deleteOwned lockKey owner, .ok affected⟩ =>
    some (lockKey, owner, decide (0 < (show Nat from affected)))
  | _ => none

/-- A call that only the holder may make answers what its statement said. -/
def LockCall.Decided (call : LockCall) (path : List (Exchange LockAction LockReply))
    (outcome : LockOutcome) : Prop :=
  ∀ lockKey owner value, call.holders = some (lockKey, owner) →
    outcome = .answered value → ∃ exchange ∈ path, decided exchange = some (lockKey, owner, value)

theorem LockCall.Returns.decides {call : LockCall} {path : List (Exchange LockAction LockReply)}
    {outcome : LockOutcome} (returned : call.Returns path outcome) : call.Decided path outcome := by
  intro lockKey owner value asked answered
  cases returned with
  | nothing unanswered => exact absurd answered (unanswered value)
  | panicked => cases answered
  | acquired | looked => cases asked
  | renewed | released =>
    cases asked
    cases answered
    exact ⟨_, .head _, rfl⟩

theorem LockCall.ensures_decided (call : LockCall) :
    Program.Ensures call.May call.Decided [] call.program :=
  call.returns_program.weaken fun _ _ => Returns.decides

/-! ## What one action does -/

section Perform

variable {choice : LockChoice} {before after : LockState} {request : LockAction}
  {answer : LockReply request}

/-- A statement says nothing about a lock: it neither sets its lease nor gives it
back. -/
def Spares (exchange : Exchange LockAction LockReply) (lockKey : String) : Prop :=
  (∀ owner expireAt, leaseSet exchange ≠ some (lockKey, owner, expireAt)) ∧
    ∀ owner, releasedBy exchange ≠ some (lockKey, owner)

variable {exchange : Exchange LockAction LockReply}

theorem spares_of_quiet
    (unset : leaseSet exchange = none) (kept : releasedBy exchange = none) (lockKey : String) :
    Spares exchange lockKey := by
  constructor
  · intro owner expireAt
    rw [unset]
    nofun
  · intro owner
    rw [kept]
    nofun

theorem releasedBy_of_leaseSet
    {lease : String × String × Nat} (set : leaseSet exchange = some lease) :
    releasedBy exchange = none := by
  unfold leaseSet at set
  split at set
  · rfl
  · rfl
  · cases set

theorem ne_of_not_heldBy {locks : LockTable} {row : LockRow} {lockKey owner : String}
    (member : row ∈ locks.rows) (other : ¬ row.heldBy lockKey owner = true)
    (affected : 0 < locks.rows.countP (LockRow.heldBy lockKey owner)) :
    lockKey ≠ row.lockKey := by
  obtain ⟨held, heldMember, mine⟩ := List.countP_pos_iff.mp affected
  rintro rfl
  have sameKey : held.lockKey = row.lockKey := by
    rw [LockRow.heldBy, decide_eq_true_eq] at mine
    exact mine.1
  exact other (locks.eq_of_primary_eq heldMember member sameKey ▸ mine)

/-- A row that is there after a statement was there before and is not what the
statement is about, or has the lease the statement set. -/
theorem row_origin (performed : lockPerform choice before request = some (answer, after))
    {row : LockRow} (member : row ∈ after.locks.rows) :
    (row ∈ before.locks.rows ∧ Spares ⟨request, answer⟩ row.lockKey) ∨
      leaseSet ⟨request, answer⟩ = some (row.lockKey, row.owner, row.expireAt) := by
  cases lockEffect_of_perform performed with
  | unchanged same unset kept => exact .inl ⟨same ▸ member, spares_of_quiet unset kept _⟩
  | expired lockKey now affected locks =>
    have stored := (Table.mem_delete.mp (locks ▸ member)).1
    exact .inl ⟨stored, spares_of_quiet rfl rfl _⟩
  | inserted new free locks =>
    rcases Table.mem_of_mem_insertOrIgnore (locks ▸ member) with stored | ⟨rfl, _⟩
    · refine .inl ⟨stored, ?_, by rintro _ ⟨⟩⟩
      intro owner expireAt set
      have same : new.lockKey = row.lockKey := congrArg Prod.fst (Option.some.inj set)
      exact free ⟨row, stored, .inl same.symm⟩
    · exact .inr rfl
  | extended lockKey owner expireAt locks =>
    obtain ⟨stored, storedMember, rfl⟩ := Table.mem_update.mp (locks ▸ member)
    unfold Table.rewrite
    split
    · next mine =>
      have affected := countP_pos_of_mem storedMember mine
      rw [LockRow.heldBy, decide_eq_true_eq] at mine
      refine .inr ?_
      rw [leaseSet, if_pos affected, ← mine.1, ← mine.2]
      rfl
    · next other =>
      refine .inl ⟨storedMember, ?_, by rintro _ ⟨⟩⟩
      intro owner expireAt set
      rw [leaseSet] at set
      split at set
      · next affected =>
        cases set
        exact ne_of_not_heldBy storedMember other affected rfl
      · cases set
  | released lockKey owner locks =>
    obtain ⟨stored, other⟩ := Table.mem_delete.mp (locks ▸ member)
    refine .inl ⟨stored, by rintro _ _ ⟨⟩, ?_⟩
    intro owner given
    rw [releasedBy] at given
    split at given
    · next affected =>
      cases given
      exact ne_of_not_heldBy stored (by simp [other]) affected rfl
    · cases given

/-- The statement of a renewal or a release finds the row of the lock if its owner
asks. -/
theorem decided_spec (performed : lockPerform choice before request = some (answer, after))
    {lockKey owner : String} {value : Bool}
    (said : decided ⟨request, answer⟩ = some (lockKey, owner, value)) :
    value = true ↔ before.OwnedBy lockKey owner := by
  have counted : value = decide (0 < before.locks.rows.countP (LockRow.heldBy lockKey owner)) := by
    unfold lockPerform at performed
    split at performed
    · cases performed
    · dsimp only at performed
      cases request with
      | extend | deleteOwned =>
        dsimp only at performed
        split at performed <;> cases performed
        · cases said
        · cases said
          rfl
      | now | deleteExpired | insert | selectExpiry | selectAll => cases said
  rw [counted, decide_eq_true_eq, List.countP_pos_iff]
  simp only [LockRow.heldBy, decide_eq_true_eq]
  rfl

end Perform

/-! ## The holder after one more action -/

section Holder

variable {entry : LockEntry} {older : List LockEntry} {lockKey owner : String} {expireAt : Nat}

theorem leaseHolder_of_spares (spared : Spares entry.exchange lockKey) :
    leaseHolder lockKey (entry :: older) = leaseHolder lockKey older := by
  obtain ⟨unset, kept⟩ := spared
  rw [leaseHolder]
  split
  · next name owner expireAt set =>
    refine if_neg ?_
    rintro rfl
    exact unset owner expireAt set
  · refine if_neg ?_
    intro given
    obtain ⟨⟨name, owner⟩, released, same⟩ := (Option.any_eq_true _ _).mp given
    rw [decide_eq_true_eq] at same
    cases same
    exact kept owner released

/-- The holder of a lock got it by the last action, or had it and the lock was not
given back. -/
theorem leaseHolder_cons (held : leaseHolder lockKey (entry :: older) = some (owner, expireAt)) :
    leaseSet entry.exchange = some (lockKey, owner, expireAt) ∨
      (leaseHolder lockKey older = some (owner, expireAt) ∧ Spares entry.exchange lockKey) := by
  rw [leaseHolder] at held
  split at held
  · next name taker ends set =>
    split at held
    · next same =>
      cases held
      exact .inl (same ▸ set)
    · next other =>
      refine .inr ⟨held, ?_, ?_⟩
      · intro _ _ again
        rw [set] at again
        cases again
        exact other rfl
      · intro giver
        rw [releasedBy_of_leaseSet set]
        nofun
  · next unset =>
    split at held
    · cases held
    · next kept =>
      refine .inr ⟨held, fun _ _ set => ?_, fun giver released => ?_⟩
      · rw [unset] at set
        cases set
      · exact kept ((Option.any_eq_true _ _).mpr ⟨_, released, decide_eq_true rfl⟩)

end Holder

/-! ## The table follows the history -/

/-- The rows of the table are leases of the history, and the leases that have not
ended have their rows. -/
structure Mirrors (history : List LockEntry) (state : LockState) : Prop where
  readable :
    ∀ {lockKey owner expireAt},
      leaseHolder lockKey history = some (owner, expireAt) → expireAt < yearTenThousand
  lease :
    ∀ row ∈ state.locks.rows, leaseHolder row.lockKey history = some (row.owner, row.expireAt)
  row :
    ∀ {lockKey owner expireAt},
      leaseHolder lockKey history = some (owner, expireAt) → state.clock < expireAt →
        ∃ row ∈ state.locks.rows, row.lockKey = lockKey ∧ row.owner = owner ∧
          row.expireAt = expireAt

section Runs

variable {initial current : LockState} {history : List LockEntry}

theorem mirrors_act {entry : LockEntry} {choice : LockChoice}
    (trace : LockTrace initial (entry :: history) entry.after)
    (earlier : LockTrace initial history entry.before)
    (performed : lockPerform choice entry.before entry.request = some (entry.answer, entry.after))
    (allowed : entry.call.May (ownPath entry.thread history) entry.request)
    (readable : entry.Readable) (mirrors : Mirrors history entry.before) :
    Mirrors (entry :: history) entry.after := by
  constructor
  · intro lockKey owner expireAt held
    rcases leaseHolder_cons held with set | ⟨before, _⟩
    · have newest : LockTrace initial ([] ++ entry :: history) entry.after := trace
      exact expireAt_of_readable newest set readable
    · exact mirrors.readable before
  · intro row member
    rcases row_origin performed member with ⟨stored, spared⟩ | set
    · rw [leaseHolder_of_spares spared]
      exact mirrors.lease row stored
    · have written : leaseSet entry.exchange = _ := set
      simp [leaseHolder, written]
  · intro lockKey owner expireAt held running
    rcases leaseHolder_cons held with set | ⟨before, unset, kept⟩
    · exact row_of_leaseSet performed set
    · have passes := (clock_of_perform performed).1
      obtain ⟨row, member, rfl, rfl, rfl⟩ := mirrors.row before (by omega)
      rcases row_kept performed member with
        stored | ⟨name, now, asked, expired⟩ | released | ⟨later, changed⟩
      · exact ⟨row, stored, rfl, rfl, rfl⟩
      · -- What was deleted as expired had ended when the clock was read.
        rw [asked] at allowed
        have notFuture := read_le_clock earlier allowed
        have ended := expired_spec (mirrors.readable before) expired
        omega
      · exact absurd released (kept row.owner)
      · exact absurd changed (unset row.owner later)

/-- In a run that starts with no locks, the table follows the history. -/
theorem mirrors_of_trace (free : initial.locks = Table.empty)
    (trace : LockTrace initial history current)
    (readable : ∀ entry ∈ history, LockEntry.Readable entry) :
    Mirrors history current := by
  induction trace with
  | start =>
    refine ⟨nofun, ?_, nofun⟩
    intro row member
    rw [free] at member
    cases member
  | crash _ ih =>
    obtain ⟨inRange, lease, row⟩ := ih readable
    exact ⟨inRange, lease, row⟩
  | act entry choice earlier performed allowed ih =>
    refine mirrors_act (.act entry choice earlier performed allowed) earlier performed
      allowed (readable entry (.head _)) ?_
    exact ih fun other member => readable other (.tail _ member)

end Runs

section Deciding

variable {history : List LockEntry} {state : LockState} {lockKey owner : String} {now : Nat}

theorem lockedAt_iff (readable : ∀ row ∈ state.locks.rows, row.expireAt < yearTenThousand)
    (forward : state.clock ≤ now) :
    state.LockedAt lockKey now ↔
      ∃ row ∈ state.locks.rows, row.lockKey = lockKey ∧ now < row.expireAt := by
  have notBack : ¬ now < state.clock := Nat.not_lt.mpr forward
  constructor
  · rintro ⟨after, answer, reached, selected, ran⟩
    simp only [LockState.answersAt, lockPerform, if_neg notBack] at selected
    cases selected
    dsimp only [Program.andThen] at ran
    split at ran
    · next unanswered => cases unanswered
    · cases ran.1
    · next expireAt found =>
      split at ran
      · cases ran.1
      · obtain ⟨read, later, clocked, ran⟩ := ran
        simp only [LockState.answersAt, lockPerform, Nat.lt_irrefl, if_false] at clocked
        cases clocked
        obtain ⟨row, first, rfl⟩ := Option.map_eq_some_iff.mp (Except.ok.inj found)
        have sameKey : row.lockKey = lockKey := by simpa using List.find?_some first
        refine ⟨row, List.mem_of_find?_eq_some first, sameKey, ?_⟩
        simpa using ran.1
  · rintro ⟨row, member, rfl, running⟩
    have first :
        (state.locks.rows.find? fun other => decide (other.lockKey = row.lockKey)) = some row := by
      obtain ⟨other, found⟩ :
          ∃ other, (state.locks.rows.find? fun other => decide (other.lockKey = row.lockKey)) =
              some other :=
        Option.isSome_iff_exists.mp (List.find?_isSome.mpr ⟨row, member, by simp⟩)
      have sameKey : other.lockKey = row.lockKey := by simpa using List.find?_some found
      rw [found, state.locks.eq_of_primary_eq (List.mem_of_find?_eq_some found) member sameKey]
    refine ⟨{ state with clock := now }, .ok (some row.expireAt), { state with clock := now },
      ?_, ?_⟩
    · simp [LockState.answersAt, lockPerform, notBack, first]
    · dsimp only [Program.andThen]
      rw [if_neg (Nat.not_le.mpr (readable row member))]
      refine ⟨now, { state with clock := now }, ?_, ?_⟩
      · simp [LockState.answersAt, lockPerform]
      · exact ⟨by rw [decide_eq_true running], rfl⟩

theorem holdsAt_iff (mirrors : Mirrors history state) (forward : state.clock ≤ now) :
    HoldsAt history lockKey owner now ↔
      state.LockedAt lockKey now ∧ state.OwnedBy lockKey owner := by
  rw [lockedAt_iff (fun row member => mirrors.readable (mirrors.lease row member)) forward]
  constructor
  · rintro ⟨expireAt, held, running⟩
    obtain ⟨row, member, rfl, rfl, rfl⟩ := mirrors.row held (Nat.lt_of_le_of_lt forward running)
    exact ⟨⟨row, member, rfl, running⟩, ⟨row, member, rfl, rfl⟩⟩
  · rintro ⟨⟨row, member, sameKey, running⟩, ⟨owned, ownedMember, ownedKey, rfl⟩⟩
    obtain rfl := state.locks.eq_of_primary_eq member ownedMember (sameKey.trans ownedKey.symm)
    exact ⟨row.expireAt, sameKey ▸ mirrors.lease row member, running⟩

/-- Being the owner of the row is holding the lock, exactly when the row is not one
that was left behind. -/
theorem ownedBy_iff_holdsAt_iff (mirrors : Mirrors history state) (forward : state.clock ≤ now) :
    (state.OwnedBy lockKey owner ↔ HoldsAt history lockKey owner now) ↔
      ¬ state.LeftBehind lockKey owner now := by
  constructor
  · rintro same ⟨row, member, rfl, rfl, ended⟩
    obtain ⟨expireAt, held, running⟩ := same.mp ⟨row, member, rfl, rfl⟩
    have lease := mirrors.lease row member
    rw [held] at lease
    cases lease
    omega
  · intro fresh
    refine ⟨?_, fun holds => ((holdsAt_iff mirrors forward).mp holds).2⟩
    rintro ⟨row, member, rfl, rfl⟩
    refine ⟨row.expireAt, mirrors.lease row member, ?_⟩
    by_contra ended
    exact fresh ⟨row, member, rfl, rfl, Nat.le_of_not_lt ended⟩

end Deciding

/-- What the renewals and releases that returned in a run have answered, each at the
instant of its statement: the holder, as the history before it has it, is the owner
of a row that counts as locked; and the answer is whether the owner holds the lock,
exactly when no row of that owner was left behind. -/
def LockService.AnswersHolder (service : LockService) : Prop :=
  ∀ finished ∈ service.finished, ∀ lockKey owner value,
    finished.call.holders = some (lockKey, owner) → finished.result = .answered value →
        ∃ newer entry older, service.history = newer ++ entry :: older ∧
            entry.thread = finished.thread ∧
            decided entry.exchange = some (lockKey, owner, value) ∧
            (HoldsAt older lockKey owner entry.after.clock ↔
              entry.before.LockedAt lockKey entry.after.clock ∧
                entry.before.OwnedBy lockKey owner) ∧
            ((value = true ↔ HoldsAt older lockKey owner entry.after.clock) ↔
              ¬ entry.before.LeftBehind lockKey owner entry.after.clock)

/-- In every run of the lock service from an empty table, with a clock that never
goes back and leases that end before the year 10000, a renewal or a release answers
true exactly for the holder, as long as it does not meet a row that its owner left
behind. -/
theorem renew_release_iff_holder (clock : Nat) (events : List LockEvent) (service : LockService)
    (scheduled :
      lockSchedule { locks := Table.empty, clock := clock } events = some service)
    (readable : ∀ entry ∈ service.history, LockEntry.Readable entry) :
    service.AnswersHolder := by
  intro finished member lockKey owner value asked answered
  have accounted := Pool.accounted_replay LockCall.ensures_decided scheduled
  obtain ⟨exchange, onPath, said⟩ :=
    accounted.finished finished member lockKey owner value asked answered
  obtain ⟨entry, inHistory, own, same⟩ := exists_performed_of_mem_ownPath onPath
  obtain ⟨newer, older, shape⟩ := List.append_of_mem inHistory
  have trace := Pool.trace_of_replay LockCall.ensures_program scheduled
  rw [shape] at trace readable
  obtain ⟨earlier, ⟨choice, performed⟩, _⟩ := trace.cut
  have mirrors :=
    mirrors_of_trace rfl earlier fun other olderMember =>
      readable other (by simp [olderMember])
  have forward := (clock_of_perform performed).1
  have decides : decided entry.exchange = some (lockKey, owner, value) := same ▸ said
  refine ⟨newer, entry, older, shape, own, decides, holdsAt_iff mirrors forward, ?_⟩
  rw [decided_spec performed decides]
  exact ownedBy_iff_holdsAt_iff mirrors forward

/-- One owner takes a lock for ten seconds and renews it some seconds later. -/
def renewsAfter (seconds : Nat) : List LockEvent :=
  acquireAt 0 0 "k" "o1" 10 ++ .spawn (.renew "k" "o1" 10) :: List.replicate 2
      (.advance 1 { clock := noLocks.clock + seconds * nanosPerSecond })

theorem renew_release_iff_holder_running :
    ∃ service, lockSchedule noLocks (renewsAfter 5) = some service ∧
      (service.finished.map fun finished => (finished.call, finished.result)) =
        [(.renew "k" "o1" 10, .answered true), (.acquire "k" "o1" 10, .answered true)] ∧
      service.AnswersHolder := by
  obtain ⟨service, scheduled, results, readable⟩ : ∃ service,
      lockSchedule noLocks (renewsAfter 5) = some service ∧
        (service.finished.map fun finished => (finished.call, finished.result)) =
          [(.renew "k" "o1" 10, .answered true), (.acquire "k" "o1" 10, .answered true)] ∧
        ∀ entry ∈ service.history, ∀ ttl ∈ entry.call.ttl?,
          entry.after.clock + ttl.toNat * nanosPerSecond < yearTenThousand :=
    exists_some_of_check (by decide +kernel)
  exact ⟨service, scheduled, results, renew_release_iff_holder _ _ _ scheduled readable⟩

/-- A second after its lease has ended, and with no call in between that would
delete the row, the owner renews the lock and holds it again. -/
theorem renew_revives_lease : ∃ service entry older,
    lockSchedule noLocks (renewsAfter 11) = some service ∧
      (service.finished.map fun finished => (finished.call, finished.result)) =
        [(.renew "k" "o1" 10, .answered true), (.acquire "k" "o1" 10, .answered true)] ∧
      service.history = entry :: older ∧
      decided entry.exchange = some ("k", "o1", true) ∧
      ¬ HoldsAt older "k" "o1" entry.after.clock ∧
      HoldsAt service.history "k" "o1" entry.after.clock := by
  have computed : (lockSchedule noLocks (renewsAfter 11)).any (fun service =>
      decide
          ((service.finished.map fun finished => (finished.call, finished.result)) =
            [(.renew "k" "o1" 10, .answered true), (.acquire "k" "o1" 10, .answered true)]) &&
        match service.history with
        | entry :: older =>
          decide (decided entry.exchange = some ("k", "o1", true)) &&
            decide (entry.after.clock = noLocks.clock + 11 * nanosPerSecond) &&
            decide (leaseHolder "k" older = some ("o1", noLocks.clock + 10 * nanosPerSecond)) &&
            decide
              (leaseHolder "k" (entry :: older) = some ("o1", noLocks.clock + 21 * nanosPerSecond))
        | [] => false) = true := by
    decide +kernel
  obtain ⟨service, scheduled, checked⟩ := (Option.any_eq_true _ _).mp computed
  rw [Bool.and_eq_true, decide_eq_true_eq] at checked
  obtain ⟨results, reached⟩ := checked
  split at reached
  · next entry older shape =>
    simp only [Bool.and_eq_true, decide_eq_true_eq] at reached
    obtain ⟨⟨⟨said, instant⟩, ended⟩, revived⟩ := reached
    refine ⟨service, entry, older, scheduled, results, shape, said, ?_, ?_⟩
    · rintro ⟨expireAt, held, running⟩
      rw [ended] at held
      cases held
      rw [instant] at running
      exact absurd running (by simp [nanosPerSecond])
    · refine ⟨_, shape ▸ revived, ?_⟩
      rw [instant]
      simp [nanosPerSecond]
  · cases reached

/-! ## Free and held locks -/

/-- `acquire` answers true at the instant. -/
def LockState.AcquiredAt (state : LockState) (lockKey owner : String) (ttl : Int) (now : Nat) :
    Prop :=
  (Program.drive lockPerform (List.replicate 5 { clock := now })
    (LockStore.acquire lockKey owner ttl) state).map Prod.fst = some (.answered true)

theorem acquiredAt_iff {state : LockState} {lockKey owner : String} {ttl : Int} {now : Nat}
    (readable : ∀ row ∈ state.locks.rows, row.expireAt < yearTenThousand)
    (forward : state.clock ≤ now)
    (inTime : ∃ expireAt ∈ expiry now ttl, expireAt < yearTenThousand) :
    state.AcquiredAt lockKey owner ttl now ↔ ¬ state.LockedAt lockKey now := by
  obtain ⟨expireAt, computed, inTime⟩ := inTime
  have early : now < yearTenThousand :=
    Nat.lt_of_le_of_lt (expiry_eq computed ▸ Nat.le_add_right _ _) inTime
  -- What the first statement leaves of the lock is in the way of the second.
  have left :
      (state.locks.delete (LockRow.stale (some lockKey) now)).Conflicts
          ⟨lockKey, owner, expireAt, now⟩ ↔ state.LockedAt lockKey now := by
    rw [lockedAt_iff readable forward]
    refine exists_congr fun row => ?_
    rw [Table.mem_delete, and_assoc]
    refine and_congr_right fun member => ?_
    have order := rfc3339_lt_iff early (readable row member)
    simp [LockRow.stale, LockRow.expired, Table.Clash, order]
    tauto
  rw [← left]
  simp only [LockState.AcquiredAt, List.replicate, Program.drive, LockStore.acquire,
    LockStore.readClock, LockStore.sql, Program.ask, bind, Program.andThen, lockPerform,
    Nat.not_lt.mpr forward, Nat.lt_irrefl, Bool.false_eq_true, if_false, Option.bind_some,
    Option.mem_def.mp computed]
  split
  · next taken => exact iff_of_false (by rintro ⟨⟩) (not_not.mpr taken)
  · next free => exact iff_of_true rfl free

/-- After every such run, `is_locked` and `acquire` tell at every instant whether
somebody holds the lock. -/
theorem locked_iff_held (clock : Nat) (events : List LockEvent) (service : LockService)
    (scheduled : lockSchedule ⟨Table.empty, clock⟩ events = some service)
    (readable : ∀ entry ∈ service.history, LockEntry.Readable entry) (lockKey owner : String)
    (ttl : Int) (now : Nat) (forward : service.shared.clock ≤ now)
    (inTime : ∃ expireAt ∈ expiry now ttl, expireAt < yearTenThousand) :
    (service.shared.LockedAt lockKey now ↔ ∃ holder, HoldsAt service.history lockKey holder now) ∧
      (service.shared.AcquiredAt lockKey owner ttl now ↔
        ¬ ∃ holder, HoldsAt service.history lockKey holder now) := by
  have trace := Pool.trace_of_replay LockCall.ensures_program scheduled
  have mirrors := mirrors_of_trace rfl trace readable
  have inRange : ∀ row ∈ service.shared.locks.rows, row.expireAt < yearTenThousand :=
    fun row member => mirrors.readable (mirrors.lease row member)
  have held : service.shared.LockedAt lockKey now ↔
      ∃ holder, HoldsAt service.history lockKey holder now := by
    simp only [holdsAt_iff mirrors forward, exists_and_left]
    refine (and_iff_left_of_imp fun locked => ?_).symm
    obtain ⟨row, member, named, _⟩ := (lockedAt_iff inRange forward).mp locked
    exact ⟨row.owner, row, member, named, rfl⟩
  exact ⟨held, (acquiredAt_iff inRange forward inTime).trans (not_congr held)⟩

theorem locked_iff_held_running :
    ∃ service, lockSchedule noLocks (acquireAt 0 0 "k" "o1" 10) = some service ∧
      ¬ service.shared.AcquiredAt "k" "o2" 10 noLocks.clock := by
  obtain ⟨service, scheduled, held, forward, readable⟩ : ∃ service,
      lockSchedule noLocks (acquireAt 0 0 "k" "o1" 10) = some service ∧
        leaseHolder "k" service.history = some ("o1", noLocks.clock + 10 * nanosPerSecond) ∧
        service.shared.clock ≤ noLocks.clock ∧
        ∀ entry ∈ service.history, ∀ ttl ∈ entry.call.ttl?,
          entry.after.clock + ttl.toNat * nanosPerSecond < yearTenThousand :=
    exists_some_of_check (by decide +kernel)
  have answers := locked_iff_held _ _ _ scheduled readable "k" "o2" 10 _ forward
    ⟨noLocks.clock + 10 * nanosPerSecond, by decide +kernel, by decide +kernel⟩
  exact ⟨service, scheduled, fun free => answers.2.mp free ⟨"o1", _, held, by decide +kernel⟩⟩

end CanglingBroker
