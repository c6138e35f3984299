import CanglingBroker.Foundation.Pool
import CanglingBroker.Foundation.Table
import CanglingBroker.Foundation.Timestamp

/-!
# The distributed locks

`LockStore` keeps one row per held lock.  A lock is acquired in two statements: one deletes
the row if it has expired, one inserts a row unless there is one.  Timestamps are compared
as texts.  The clock never goes back.
-/

namespace CanglingBroker

open Foundation

structure LockRow where
  lockKey : String
  owner : String
  expireAt : Nat
  createTime : Nat
  deriving DecidableEq, Repr

abbrev LockTable : Type :=
  Table (fun row : LockRow => row.lockKey) (fun _ : LockRow => (none : Option Unit))

/-- The table and the clock. -/
structure LockState where
  locks : LockTable
  clock : Nat

/-- What the scheduler decides about an action: when it happens, and whether its
statement fails. -/
structure LockChoice where
  clock : Nat
  fails : Bool := false
  deriving DecidableEq, Repr

/-- A reading of the clock, or a statement. -/
inductive LockAction where
  | now
  | deleteExpired (lockKey : Option String) (now : Nat)
  | insert (lockKey owner : String) (expireAt createTime : Nat)
  | extend (lockKey owner : String) (expireAt : Nat)
  | deleteOwned (lockKey owner : String)
  | selectExpiry (lockKey : String)
  | selectAll
  deriving DecidableEq, Repr

/-- What an action answers; a statement may fail.  A write answers with the
number of rows it affected. -/
def LockReply : LockAction → Type
  | .now => Nat
  | .selectExpiry _ => Except Unit (Option Nat)
  | .selectAll => Except Unit (List LockRow)
  | _ => Except Unit Nat

namespace LockRow

/-- `expire_at <= ?`, on texts. -/
def expired (now : Nat) (row : LockRow) : Bool :=
  decide (¬ rfc3339 now < rfc3339 row.expireAt)

/-- The rows of `DELETE … WHERE [lock_key = ? AND] expire_at <= ?`. -/
def stale (lockKey : Option String) (now : Nat) (row : LockRow) : Bool :=
  (lockKey.all fun key => decide (row.lockKey = key)) && row.expired now

def heldBy (lockKey owner : String) (row : LockRow) : Bool :=
  decide (row.lockKey = lockKey ∧ row.owner = owner)

end LockRow

/-- `SET expire_at = ?`. -/
def extendTo (expireAt : Nat) :
    Assignment (fun row : LockRow => row.lockKey) (fun _ : LockRow => (none : Option Unit)) where
  set := fun row => { row with expireAt := expireAt }
  keepsPrimary := fun _ => rfl
  keepsAlternate := fun _ => rfl

def sortedLocks (locks : LockTable) : List LockRow :=
  locks.rows.mergeSort fun left right => decide (left.lockKey ≤ right.lockKey)

/-- Perform one action at the instant the scheduler says. -/
def lockPerform (choice : LockChoice) (state : LockState) (request : LockAction) :
    Option (LockReply request × LockState) :=
  if choice.clock < state.clock then
    none
  else
    let current := { state with clock := choice.clock }
    match request with
    | .now => some (choice.clock, current)
    | .deleteExpired lockKey now =>
      if choice.fails then
        some (.error (), current)
      else
        some
          (.ok (state.locks.rows.countP (LockRow.stale lockKey now)),
            { current with locks := state.locks.delete (LockRow.stale lockKey now) })
    | .insert lockKey owner expireAt createTime =>
      let new : LockRow := ⟨lockKey, owner, expireAt, createTime⟩
      if choice.fails then
        some (.error (), current)
      else if state.locks.Conflicts new then
        some (.ok 0, current)
      else
        some (.ok 1, { current with locks := state.locks.insertOrIgnore new })
    | .extend lockKey owner expireAt =>
      if choice.fails then
        some (.error (), current)
      else
        some
          (.ok (state.locks.rows.countP (LockRow.heldBy lockKey owner)),
            { current with
              locks :=
                state.locks.update (LockRow.heldBy lockKey owner) (extendTo expireAt) })
    | .deleteOwned lockKey owner =>
      if choice.fails then
        some (.error (), current)
      else
        some
          (.ok (state.locks.rows.countP (LockRow.heldBy lockKey owner)),
            { current with
              locks := state.locks.delete (LockRow.heldBy lockKey owner) })
    | .selectExpiry lockKey =>
      if choice.fails then
        some (.error (), current)
      else
        some
          (.ok
            ((state.locks.rows.find? fun row => decide (row.lockKey = lockKey)).map
              LockRow.expireAt),
            current)
    | .selectAll =>
      if choice.fails then
        some (.error (), current)
      else
        some (.ok (sortedLocks state.locks), current)

/-! ## The calls -/

/-- What a call of the lock service ends with. -/
inductive LockOutcome where
  | invalidArgument
  | failed
  | panicked
  | answered (value : Bool)
  | purged (count : Nat)
  | listed (rows : List LockRow)
  deriving DecidableEq, Repr

/-- `Utc::now() + Duration::seconds(ttl)`; both operations can panic. -/
def expiry (now : Nat) (ttl : Int) : Option Nat :=
  if (2 ^ 63 - 1) / 1000 < ttl then
    none
  else
    let instant := now + ttl.toNat * nanosPerSecond
    if lastInstant < instant then none else some instant

namespace LockStore

def readClock : Program LockAction LockReply Nat :=
  Program.ask LockAction.now

def sql (statement : LockAction) :
    Program LockAction LockReply (LockReply statement) :=
  Program.ask statement

def affectedRows (outcome : Nat → LockOutcome) : Except Unit Nat → LockOutcome
  | .error _ => .failed
  | .ok affected => outcome affected

def acquire (lockKey owner : String) (ttl : Int) :
    Program LockAction LockReply LockOutcome := do
  let now ← readClock
  match ← sql (.deleteExpired (some lockKey) now) with
  | .error _ => return .failed
  | .ok _ =>
    let later ← readClock
    match expiry later ttl with
    | none => return .panicked
    | some expireAt =>
      let created ← readClock
      let inserted ← sql (.insert lockKey owner expireAt created)
      return affectedRows (fun affected => .answered (0 < affected)) inserted

def renew (lockKey owner : String) (ttl : Int) :
    Program LockAction LockReply LockOutcome := do
  let now ← readClock
  match expiry now ttl with
  | none => return .panicked
  | some expireAt =>
    let extended ← sql (.extend lockKey owner expireAt)
    return affectedRows (fun affected => .answered (0 < affected)) extended

def release (lockKey owner : String) :
    Program LockAction LockReply LockOutcome := do
  let deleted ← sql (.deleteOwned lockKey owner)
  return affectedRows (fun affected => .answered (0 < affected)) deleted

/-- `LockStore::is_locked`.  A text with a signed year does not parse, and counts
as expired. -/
def isLocked (lockKey : String) : Program LockAction LockReply LockOutcome := do
  match ← sql (.selectExpiry lockKey) with
  | .error _ => return .failed
  | .ok none => return .answered false
  | .ok (some expireAt) =>
    if yearTenThousand ≤ expireAt then
      return .answered false
    else
      let now ← readClock
      return .answered (now < expireAt)

def purgeExpired : Program LockAction LockReply LockOutcome := do
  let now ← readClock
  let deleted ← sql (.deleteExpired none now)
  return affectedRows .purged deleted

def list : Program LockAction LockReply LockOutcome := do
  let now ← readClock
  match ← sql (.deleteExpired none now) with
  | .error _ => return .failed
  | .ok _ =>
    match ← sql .selectAll with
    | .error _ => return .failed
    | .ok rows => return .listed rows

end LockStore

/-- The calls of the lock service, with keys and owners as they are after
trimming. -/
inductive LockCall where
  | acquire (lockKey owner : String) (ttl : Int)
  | renew (lockKey owner : String) (ttl : Int)
  | release (lockKey owner : String)
  | isLocked (lockKey : String)
  | purgeExpired
  | list
  deriving DecidableEq, Repr

namespace LockCall

def Invalid : LockCall → Prop
  | .acquire lockKey owner ttl | .renew lockKey owner ttl => lockKey = "" ∨ owner = "" ∨ ttl ≤ 0
  | .release lockKey owner => lockKey = "" ∨ owner = ""
  | .isLocked lockKey => lockKey = ""
  | .purgeExpired | .list => False

instance : (call : LockCall) → Decidable call.Invalid
  | .acquire _ _ _ | .renew _ _ _ => inferInstanceAs (Decidable (_ ∨ _ ∨ _))
  | .release _ _ => inferInstanceAs (Decidable (_ ∨ _))
  | .isLocked _ => inferInstanceAs (Decidable (_ = _))
  | .purgeExpired | .list => inferInstanceAs (Decidable False)

/-- The handlers check their arguments and ask the store. -/
def program (call : LockCall) : Program LockAction LockReply LockOutcome :=
  if call.Invalid then
    return .invalidArgument
  else
    match call with
    | .acquire lockKey owner ttl => LockStore.acquire lockKey owner ttl
    | .renew lockKey owner ttl => LockStore.renew lockKey owner ttl
    | .release lockKey owner => LockStore.release lockKey owner
    | .isLocked lockKey => LockStore.isLocked lockKey
    | .purgeExpired => LockStore.purgeExpired
    | .list => LockStore.list

end LockCall

/-- The lock service.  The table is on disk and the clock runs on, so a crash
changes neither. -/
def lockComponent :
    Component LockCall LockAction LockReply LockState LockChoice LockOutcome where
  perform := lockPerform
  crash := fun state => state
  program := LockCall.program

abbrev LockEntry : Type := Performed LockCall LockAction LockReply LockState

abbrev LockService : Type := Pool LockCall LockAction LockReply LockState LockOutcome

/-- What the scheduler can do with the calls of the lock service. -/
abbrev LockEvent : Type := PoolEvent LockCall LockChoice

def lockSchedule (initial : LockState) (events : List LockEvent) :
    Option LockService :=
  Pool.replay lockComponent initial events

end CanglingBroker
