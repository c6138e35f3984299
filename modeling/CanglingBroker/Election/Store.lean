import CanglingBroker.Foundation.Pool
import CanglingBroker.Foundation.Table

/-!
# The elections

`ElectionStore` keeps one row per election: its leader, term, lease and expiry.  A campaign
is one statement that inserts or takes over the row, and a second one that reads it when the
first found an active leader.
-/

namespace CanglingBroker

open Foundation

/-- A row of `sys_election`, without the time of its last update, which nothing
reads.  A term is a count of campaigns, far from the range of its column. -/
structure LeaderLease where
  election : String
  leaderId : String
  term : Nat
  leaseId : String
  expireAtMs : Int
  deriving DecidableEq, Repr

abbrev ElectionTable : Type :=
  Table (fun row : LeaderLease => row.election) (fun _ : LeaderLease => (none : Option Unit))

/-- The table, and the lease identifiers drawn so far. -/
structure ElectionState where
  elections : ElectionTable
  issued : List String

/-- What the scheduler decides about an action. -/
structure ElectionChoice where
  clock : Int := 0
  uuid : String := ""
  fails : Bool := false
  deriving DecidableEq, Repr

/-- A reading of the clock, a new identifier, or a statement. -/
inductive ElectionAction where
  | now
  | newLease
  | takeOver (election candidateId leaseId : String) (expires now : Int)
  | extend (election leaderId : String) (term : Nat) (leaseId : String) (expires now : Int)
  | expire (election leaderId : String) (term : Nat) (leaseId : String) (now : Int)
  | select (election : String)
  deriving DecidableEq, Repr

def ElectionAction.election? : ElectionAction → Option String
  | .now | .newLease => none
  | .takeOver election .. | .extend election .. | .expire election ..
  | .select election => some election

def ElectionReply : ElectionAction → Type
  | .now => Int
  | .newLease => String
  | .expire .. => Except Unit Nat
  | _ => Except Unit (Option LeaderLease)

def LeaderLease.holds (election leader : String) (term : Nat) (leaseId : String) (now : Int)
    (row : LeaderLease) : Bool :=
  decide
    (row.election = election ∧ row.leaderId = leader ∧ row.term = term ∧
      row.leaseId = leaseId ∧ now < row.expireAtMs)

def LeaderLease.isOver (election : String) (now : Int) (row : LeaderLease) : Bool :=
  decide (row.election = election ∧ row.expireAtMs ≤ now)

abbrev ElectionAssignment : Type :=
  Assignment (fun row : LeaderLease => row.election) (fun _ : LeaderLease => (none : Option Unit))

/-- `DO UPDATE SET …` of a campaign. -/
def succeedBy (candidateId leaseId : String) (expires : Int) : ElectionAssignment where
  set := fun row =>
    { row with
      leaderId := candidateId
      term := row.term + 1
      leaseId := leaseId
      expireAtMs := expires }
  keepsPrimary := fun _ => rfl
  keepsAlternate := fun _ => rfl

/-- `SET expire_at_ms = ?`. -/
def endLeaseAt (expires : Int) : ElectionAssignment where
  set := fun row => { row with expireAtMs := expires }
  keepsPrimary := fun _ => rfl
  keepsAlternate := fun _ => rfl

namespace ElectionTable

def row? (table : ElectionTable) (election : String) : Option LeaderLease :=
  table.rows.find? fun row => decide (row.election = election)

/-- The statement of a campaign: insert the row, or take it over if its lease is
over; an active row stays and nothing is returned. -/
def takeOver (election candidateId leaseId : String) (expires now : Int)
    (table : ElectionTable) : Option LeaderLease × ElectionTable :=
  match table.row? election with
  | none =>
    let new : LeaderLease := ⟨election, candidateId, 1, leaseId, expires⟩
    (some new, table.insertOrIgnore new)
  | some row =>
    if row.isOver election now then
      (some ((succeedBy candidateId leaseId expires).set row),
        table.update (LeaderLease.isOver election now) (succeedBy candidateId leaseId expires))
    else
      (none, table)

/-- The statement of a renewal and of a resignation: set the end of an active
lease, and return the rows it was. -/
def setEnd (election leaderId : String) (term : Nat) (leaseId : String)
    (expires now : Int) (table : ElectionTable) :
    Option LeaderLease × ElectionTable :=
  ((table.rows.find? (LeaderLease.holds election leaderId term leaseId now)).map
      (endLeaseAt expires).set,
    table.update (LeaderLease.holds election leaderId term leaseId now) (endLeaseAt expires))

end ElectionTable

def electionPerform (choice : ElectionChoice) (state : ElectionState)
    (request : ElectionAction) : Option (ElectionReply request × ElectionState) :=
  match request with
  | .now => some (choice.clock, state)
  | .newLease =>
    if choice.uuid ∈ state.issued then
      none
    else
      some (choice.uuid, { state with issued := choice.uuid :: state.issued })
  | .takeOver election candidateId leaseId expires now =>
    if choice.fails then
      some (.error (), state)
    else
      let result :=
        state.elections.takeOver election candidateId leaseId expires now
      some (.ok result.1, { state with elections := result.2 })
  | .extend election leaderId term leaseId expires now =>
    if choice.fails then
      some (.error (), state)
    else
      let result :=
        state.elections.setEnd election leaderId term leaseId expires now
      some (.ok result.1, { state with elections := result.2 })
  | .expire election leaderId term leaseId now =>
    if choice.fails then
      some (.error (), state)
    else
      let result := state.elections.setEnd election leaderId term leaseId now now
      some (.ok result.1.toList.length, { state with elections := result.2 })
  | .select election =>
    if choice.fails then
      some (.error (), state)
    else
      some (.ok (state.elections.row? election), state)

/-! ## The calls -/

/-- `i64` arithmetic that stays in range. -/
def saturate (value : Int) : Int :=
  max (-2 ^ 63) (min value (2 ^ 63 - 1))

/-- `now.saturating_add(ttl_seconds.saturating_mul(1000))`. -/
def leaseEnd (now ttl : Int) : Int :=
  saturate (now + saturate (ttl * 1000))

/-- `ElectionLeader`: a row, with the time its lease has left when the reply is
built. -/
structure ElectionLeader where
  lease : LeaderLease
  remainingTtlMs : Int
  deriving DecidableEq, Repr

/-- What a call of the election service ends with. -/
inductive ElectionOutcome where
  | invalidArgument
  | failed
  | campaigned (won : Bool) (leader : ElectionLeader)
  | renewed (leader : Option ElectionLeader)
  | resigned (done : Bool)
  | found (leader : Option (Bool × ElectionLeader))
  deriving DecidableEq, Repr

def ElectionOutcome.lease? : ElectionOutcome → Option LeaderLease
  | .campaigned _ leader => some leader.lease
  | .renewed leader => leader.map ElectionLeader.lease
  | .found leader => leader.map fun found => found.2.lease
  | _ => none

namespace ElectionStore

def readClock : Program ElectionAction ElectionReply Int :=
  Program.ask ElectionAction.now

def newLease : Program ElectionAction ElectionReply String :=
  Program.ask ElectionAction.newLease

def sql (statement : ElectionAction) :
    Program ElectionAction ElectionReply (ElectionReply statement) :=
  Program.ask statement

def toProto (lease : LeaderLease) :
    Program ElectionAction ElectionReply ElectionLeader := do
  let now ← readClock
  return ⟨lease, max (saturate (lease.expireAtMs - now)) 0⟩

def campaignReply (candidateId : String) (leader : LeaderLease) :
    Program ElectionAction ElectionReply ElectionOutcome := do
  let now ← readClock
  let shown ← toProto leader
  return .campaigned
    (decide (now < leader.expireAtMs) && decide (leader.leaderId = candidateId)) shown

/-- `ElectionStore::campaign`, with the reply of its handler. -/
def campaign (election candidateId : String) (ttl : Int) :
    Program ElectionAction ElectionReply ElectionOutcome := do
  let now ← readClock
  let leaseId ← newLease
  match ← sql (.takeOver election candidateId leaseId (leaseEnd now ttl) now) with
  | .error _ => return .failed
  | .ok (some leader) => campaignReply candidateId leader
  | .ok none =>
    match ← sql (.select election) with
    | .error _ => return .failed
    | .ok none => return .failed
    | .ok (some leader) => campaignReply candidateId leader

/-- `ElectionStore::renew`, with the reply of its handler. -/
def renew (election leaderId : String) (term : Nat) (leaseId : String) (ttl : Int) :
    Program ElectionAction ElectionReply ElectionOutcome :=
  if 2 ^ 63 ≤ term then
    return .failed
  else do
    let now ← readClock
    match ← sql (.extend election leaderId term leaseId (leaseEnd now ttl) now) with
    | .error _ => return .failed
    | .ok none => return .renewed none
    | .ok (some leader) => do
        let shown ← toProto leader
        return .renewed (some shown)

def resign (election leaderId : String) (term : Nat) (leaseId : String) :
    Program ElectionAction ElectionReply ElectionOutcome :=
  if 2 ^ 63 ≤ term then
    return .failed
  else do
    let now ← readClock
    match ← sql (.expire election leaderId term leaseId now) with
    | .error _ => return .failed
    | .ok affected => return .resigned (decide (affected = 1))

/-- `ElectionStore::get`, with the reply of its handler. -/
def get (election : String) : Program ElectionAction ElectionReply ElectionOutcome := do
  match ← sql (.select election) with
  | .error _ => return .failed
  | .ok none => return .found none
  | .ok (some leader) => do
      let now ← readClock
      let shown ← toProto leader
      return .found (some (decide (now < leader.expireAtMs), shown))

end ElectionStore

/-- The calls of the election service, with names as they are after trimming. -/
inductive ElectionCall where
  | campaign (election candidateId : String) (ttl : Int)
  | renew (election leaderId : String) (term : Nat) (leaseId : String) (ttl : Int)
  | resign (election leaderId : String) (term : Nat) (leaseId : String)
  | getLeader (election : String)
  deriving DecidableEq, Repr

namespace ElectionCall

/-- `validate_ttl` refuses. -/
def BadTtl (ttl : Int) : Prop :=
  ¬ (1 ≤ ttl ∧ ttl ≤ 3600)

instance (ttl : Int) : Decidable (BadTtl ttl) :=
  inferInstanceAs (Decidable (¬ (_ ∧ _)))

/-- What the handlers refuse. -/
def Invalid : ElectionCall → Prop
  | .campaign election candidateId ttl => election = "" ∨ candidateId = "" ∨ BadTtl ttl
  | .renew election leaderId term leaseId ttl =>
    (election = "" ∨ leaderId = "" ∨ leaseId = "" ∨ term = 0) ∨ BadTtl ttl
  | .resign election leaderId term leaseId =>
    election = "" ∨ leaderId = "" ∨ leaseId = "" ∨ term = 0
  | .getLeader election => election = ""

instance : (call : ElectionCall) → Decidable call.Invalid
  | .campaign _ _ _ => inferInstanceAs (Decidable (_ ∨ _ ∨ _))
  | .renew _ _ _ _ _ => inferInstanceAs (Decidable ((_ ∨ _ ∨ _ ∨ _) ∨ _))
  | .resign _ _ _ _ => inferInstanceAs (Decidable (_ ∨ _ ∨ _ ∨ _))
  | .getLeader _ => inferInstanceAs (Decidable (_ = _))

/-- The handlers check their arguments and ask the store. -/
def program (call : ElectionCall) :
    Program ElectionAction ElectionReply ElectionOutcome :=
  if call.Invalid then
    return .invalidArgument
  else
    match call with
    | .campaign election candidateId ttl => ElectionStore.campaign election candidateId ttl
    | .renew election leaderId term leaseId ttl =>
      ElectionStore.renew election leaderId term leaseId ttl
    | .resign election leaderId term leaseId => ElectionStore.resign election leaderId term leaseId
    | .getLeader election => ElectionStore.get election

end ElectionCall

/-- The election service; the table is on disk, and a restart draws no identifier
a second time. -/
def electionComponent :
    Component ElectionCall ElectionAction ElectionReply ElectionState
      ElectionChoice ElectionOutcome where
  perform := electionPerform
  crash := fun state => state
  program := ElectionCall.program

abbrev ElectionEntry : Type :=
  Performed ElectionCall ElectionAction ElectionReply ElectionState

abbrev ElectionService : Type :=
  Pool ElectionCall ElectionAction ElectionReply ElectionState ElectionOutcome

/-- What the scheduler can do with the calls of the election service. -/
abbrev ElectionEvent : Type := PoolEvent ElectionCall ElectionChoice

def electionSchedule (initial : ElectionState) (events : List ElectionEvent) :
    Option ElectionService :=
  Pool.replay electionComponent initial events

end CanglingBroker
