import CanglingBroker.Election.Store

/-!
# Fencing by terms

Whatever the clocks say, a row of an election only changes its leader or its lease
by a takeover, and a takeover adds one to the term.  So a term belongs to one
leader and one lease for all time, and whoever holds an older term can change
nothing any more.
-/

namespace CanglingBroker

open Foundation

namespace ElectionTable

variable {table : ElectionTable} {row : LeaderLease} {election : String}

theorem row?_eq_some_iff :
    table.row? election = some row ↔ row ∈ table.rows ∧ row.election = election := by
  constructor
  · intro found
    have passes := List.find?_some found
    exact ⟨List.mem_of_find?_eq_some found, by simpa using passes⟩
  · rintro ⟨member, rfl⟩
    cases found : table.row? row.election with
    | none =>
      have absent := List.find?_eq_none.mp found row member
      simp at absent
    | some other =>
      have passes := List.find?_some found
      have same : other.election = row.election := by
        simpa using passes
      rw [table.eq_of_primary_eq (List.mem_of_find?_eq_some found) member same]

theorem row?_eq_none_iff :
    table.row? election = none ↔ ∀ row ∈ table.rows, row.election ≠ election := by
  unfold row?
  rw [List.find?_eq_none]
  simp

theorem eq_of_election_eq {other : LeaderLease} (member : row ∈ table.rows)
    (otherMember : other ∈ table.rows) (same : row.election = other.election) : row = other :=
  table.eq_of_primary_eq member otherMember same

end ElectionTable

/-- What a statement can make of the row of an election: leader and lease stay
and so does the term, or the term is the next one. -/
def LeaderLease.Follows (new old : LeaderLease) : Prop :=
  new.election = old.election ∧ ((new.term = old.term ∧ new.leaderId = old.leaderId ∧
      new.leaseId = old.leaseId) ∨
      new.term = old.term + 1)

theorem LeaderLease.Follows.refl (row : LeaderLease) : row.Follows row :=
  ⟨rfl, .inl ⟨rfl, rfl, rfl⟩⟩

/-! ## What one statement does -/

section Statements

variable {table : ElectionTable} {election candidateId leaderId leaseId : String} {term : Nat}
  {expires now : Int} {row : LeaderLease}

theorem mem_update_of_other {guard : LeaderLease → Bool} {assignment : ElectionAssignment}
    (guarded : ∀ row, guard row = true → row.election = election)
    (other : row.election ≠ election) :
    row ∈ (table.update guard assignment).rows ↔ row ∈ table.rows := by
  have kept {stored : LeaderLease} (notIt : stored.election ≠ election) :
      Table.rewrite guard assignment stored = stored := by
    rw [Table.rewrite, if_neg]
    exact fun matched => notIt (guarded stored matched)
  rw [Table.mem_update]
  constructor
  · rintro ⟨stored, member, rfl⟩
    have sameElection : (Table.rewrite guard assignment stored).election = stored.election :=
      Table.primary_rewrite guard assignment stored
    rw [sameElection] at other
    rw [kept other]
    exact member
  · intro member
    exact ⟨row, member, kept other⟩

theorem exists_update_follows {guard : LeaderLease → Bool} {assignment : ElectionAssignment}
    (follows : ∀ row, (assignment.set row).Follows row)
    (member : row ∈ table.rows) :
    ∃ new ∈ (table.update guard assignment).rows, new.Follows row := by
  refine ⟨Table.rewrite guard assignment row, Table.mem_update.mpr ⟨row, member, rfl⟩, ?_⟩
  unfold Table.rewrite
  split
  · exact follows row
  · exact .refl row

theorem isOver_election (row : LeaderLease) (matched : row.isOver election now = true) :
    row.election = election := by
  rw [LeaderLease.isOver, decide_eq_true_eq] at matched
  exact matched.1

theorem holds_election (row : LeaderLease)
    (matched : row.holds election leaderId term leaseId now = true) :
    row.election = election := by
  rw [LeaderLease.holds, decide_eq_true_eq] at matched
  exact matched.1

theorem endLeaseAt_follows (row : LeaderLease) : ((endLeaseAt expires).set row).Follows row :=
  ⟨rfl, .inl ⟨rfl, rfl, rfl⟩⟩

theorem succeedBy_follows (row : LeaderLease) :
    ((succeedBy candidateId leaseId expires).set row).Follows row :=
  ⟨rfl, .inr rfl⟩

theorem takeOver_rows : (∀ row ∈ table.rows,
    ∃ new ∈ (table.takeOver election candidateId leaseId expires now).2.rows, new.Follows row) ∧
    ∀ row, row.election ≠ election →
      (row ∈ (table.takeOver election candidateId leaseId expires now).2.rows ↔
        row ∈ table.rows) := by
  unfold ElectionTable.takeOver
  split
  · next absent =>
    constructor
    · intro row member
      exact ⟨row, Table.mem_insertOrIgnore_of_mem member, .refl row⟩
    · intro row other
      constructor
      · intro member
        rcases Table.mem_of_mem_insertOrIgnore member with stored | ⟨rfl, _⟩
        · exact stored
        · exact absurd rfl other
      · exact Table.mem_insertOrIgnore_of_mem
  · next current found =>
    split
    · constructor
      · intro row member
        exact exists_update_follows succeedBy_follows member
      · intro row other
        exact mem_update_of_other isOver_election other
    · exact ⟨fun row member => ⟨row, member, .refl row⟩, fun _ _ => Iff.rfl⟩

theorem takeOver_returned
    (returned : (table.takeOver election candidateId leaseId expires now).1 = some row) :
    row ∈ (table.takeOver election candidateId leaseId expires now).2.rows ∧
      row.election = election := by
  unfold ElectionTable.takeOver at returned ⊢
  split at returned
  · next absent =>
    simp only [Option.some.injEq] at returned
    subst returned
    have free : ¬ Table.Conflicts table
        (⟨election, candidateId, 1, leaseId, expires⟩ : LeaderLease) := by
      rintro ⟨stored, member, same | ⟨keyed, _⟩⟩
      · exact ElectionTable.row?_eq_none_iff.mp absent stored member same
      · exact keyed rfl
    refine ⟨?_, rfl⟩
    simp only [Table.insertOrIgnore_rows, if_neg free]
    exact List.mem_append_right _ (.head _)
  · next current found =>
    obtain ⟨member, same⟩ := ElectionTable.row?_eq_some_iff.mp found
    split at returned
    · next ended =>
      simp only [Option.some.injEq] at returned
      subst returned
      rw [if_pos ended]
      refine ⟨Table.mem_update.mpr ⟨current, member, ?_⟩, same⟩
      rw [Table.rewrite, if_pos ended]
    · cases returned

theorem setEnd_rows : (∀ row ∈ table.rows,
    ∃ new ∈ (table.setEnd election leaderId term leaseId expires now).2.rows, new.Follows row) ∧
    ∀ row, row.election ≠ election →
      (row ∈ (table.setEnd election leaderId term leaseId expires now).2.rows ↔
        row ∈ table.rows) := by
  constructor
  · intro row member
    exact exists_update_follows endLeaseAt_follows member
  · intro row other
    exact mem_update_of_other holds_election other

theorem setEnd_returned
    (returned : (table.setEnd election leaderId term leaseId expires now).1 = some row) :
    row ∈ (table.setEnd election leaderId term leaseId expires now).2.rows ∧
      row.election = election ∧ row.term = term := by
  obtain ⟨stored, found, rfl⟩ := Option.map_eq_some_iff.mp returned
  have matched := List.find?_some found
  have member := List.mem_of_find?_eq_some found
  refine ⟨Table.mem_update.mpr ⟨stored, member, ?_⟩, ?_⟩
  · rw [Table.rewrite, if_pos matched]
  · rw [LeaderLease.holds, decide_eq_true_eq] at matched
    exact ⟨matched.1, matched.2.2.1⟩

theorem setEnd_of_otherTerm
    (otherTerm : ∀ row ∈ table.rows, row.election = election → row.term ≠ term) :
    table.setEnd election leaderId term leaseId expires now = (none, table) := by
  have noMatch : ∀ row ∈ table.rows,
      LeaderLease.holds election leaderId term leaseId now row = false := by
    intro row member
    rw [LeaderLease.holds, decide_eq_false_iff_not]
    rintro ⟨same, _, sameTerm, _⟩
    exact otherTerm row member same sameTerm
  have unmatched :
      table.rows.find? (LeaderLease.holds election leaderId term leaseId now) = none := by
    rw [List.find?_eq_none]
    intro row member
    rw [noMatch row member]
    decide
  unfold ElectionTable.setEnd
  rw [unmatched, Table.update_eq_self noMatch]
  rfl

end Statements

/-! ## What one action does -/

def shownLease : Exchange ElectionAction ElectionReply → Option LeaderLease
  | ⟨.takeOver .., .ok row⟩ | ⟨.extend .., .ok row⟩ | ⟨.select _, .ok row⟩ => row
  | _ => none

/-- The election and the term a renewal or a resignation is made with. -/
def ElectionAction.heldTerm? : ElectionAction → Option (String × Nat)
  | .extend election _ term _ _ _ | .expire election _ term _ _ => some (election, term)
  | _ => none

def tookEffect : Exchange ElectionAction ElectionReply → Prop
  | ⟨.extend .., .ok (some _)⟩ => True
  | ⟨.expire .., .ok affected⟩ => 0 < (show Nat from affected)
  | _ => False

section Perform

/-- What an action did: one of the statements ran, or nothing was changed and shown. -/
inductive ElectionEffect (before : ElectionState) :
    (request : ElectionAction) → ElectionReply request → ElectionState → Prop
  | tookOver (election candidateId leaseId : String) (expires now : Int) :
      ElectionEffect before (.takeOver election candidateId leaseId expires now)
        (.ok (before.elections.takeOver election candidateId leaseId expires now).1)
        ⟨(before.elections.takeOver election candidateId leaseId expires now).2, before.issued⟩
  | extended (election leaderId : String) (term : Nat) (leaseId : String) (expires now : Int) :
      ElectionEffect before (.extend election leaderId term leaseId expires now)
        (.ok (before.elections.setEnd election leaderId term leaseId expires now).1)
        ⟨(before.elections.setEnd election leaderId term leaseId expires now).2, before.issued⟩
  | resigned (election leaderId : String) (term : Nat) (leaseId : String) (now : Int) :
      ElectionEffect before (.expire election leaderId term leaseId now)
        (.ok (before.elections.setEnd election leaderId term leaseId now now).1.toList.length)
        ⟨(before.elections.setEnd election leaderId term leaseId now now).2, before.issued⟩
  | selected (election : String) :
      ElectionEffect before (.select election) (.ok (before.elections.row? election)) before
  | idle {request : ElectionAction} {answer : ElectionReply request} {after : ElectionState}
      (same : after.elections = before.elections)
      (hidden : shownLease ⟨request, answer⟩ = none) (without : ¬ tookEffect ⟨request, answer⟩) :
      ElectionEffect before request answer after

variable {choice : ElectionChoice} {before after : ElectionState}
  {request : ElectionAction} {answer : ElectionReply request}

theorem effect_of_electionPerform
    (performed : electionPerform choice before request = some (answer, after)) :
    ElectionEffect before request answer after := by
  cases request with
  | now =>
    cases performed
    exact .idle rfl rfl id
  | newLease =>
    simp only [electionPerform] at performed
    split at performed <;> cases performed
    exact .idle rfl rfl id
  | takeOver | extend | expire | select =>
    simp only [electionPerform] at performed
    split at performed <;> cases performed
    · exact .idle rfl rfl id
    · constructor

section

variable (effect : ElectionEffect before request answer after)

include effect

/-- Every row is followed by a row of its election, and the rows of elections the
action is not about stay as they are. -/
theorem ElectionEffect.rows :
    (∀ row ∈ before.elections.rows, ∃ new ∈ after.elections.rows, new.Follows row) ∧
      ∀ row, request.election? ≠ some row.election →
        (row ∈ after.elections.rows ↔ row ∈ before.elections.rows) := by
  have unchanged : (∀ row ∈ before.elections.rows, ∃ new ∈ before.elections.rows,
      new.Follows row) ∧ ∀ row, request.election? ≠ some row.election →
        (row ∈ before.elections.rows ↔ row ∈ before.elections.rows) :=
    ⟨fun row member => ⟨row, member, .refl row⟩, fun _ _ => Iff.rfl⟩
  cases effect with
  | idle same => rwa [same]
  | selected => exact unchanged
  | tookOver =>
    exact ⟨takeOver_rows.1, fun row other =>
      takeOver_rows.2 row fun same => other (congrArg some same.symm)⟩
  | extended | resigned =>
    exact ⟨setEnd_rows.1, fun row other =>
      setEnd_rows.2 row fun same => other (congrArg some same.symm)⟩

/-- An answer shows a row that is there after the statement. -/
theorem ElectionEffect.mem_of_shown {row : LeaderLease}
    (shown : shownLease ⟨request, answer⟩ = some row) : row ∈ after.elections.rows := by
  cases effect with
  | idle _ hidden =>
    rw [hidden] at shown
    cases shown
  | tookOver => exact (takeOver_returned shown).1
  | extended => exact (setEnd_returned shown).1
  | resigned => cases shown
  | selected => exact (ElectionTable.row?_eq_some_iff.mp shown).1

/-- A renewal or a resignation with a term the election is not in has no
effect. -/
theorem ElectionEffect.stale {election : String}
    {term : Nat} (held : request.heldTerm? = some (election, term))
    (otherTerm : ∀ row ∈ before.elections.rows, row.election = election → row.term ≠ term) :
    after.elections = before.elections ∧ ¬ tookEffect ⟨request, answer⟩ := by
  cases effect with
  | idle same _ without => exact ⟨same, without⟩
  | tookOver | selected => cases held
  | extended | resigned =>
    cases held
    rw [setEnd_of_otherTerm otherTerm]
    exact ⟨rfl, by simp [tookEffect]⟩

end

end Perform

/-! ## What a call asks for -/

namespace ElectionCall

def election : ElectionCall → String
  | .campaign election _ _ | .renew election .. | .resign election ..
  | .getLeader election => election

/-- The election and the term of a renewal or a resignation. -/
def heldTerm? : ElectionCall → Option (String × Nat)
  | .renew election _ term _ _ | .resign election _ term _ => some (election, term)
  | _ => none

/-- A call only asks about its own election, and with its own term. -/
def May (call : ElectionCall) (_ : List (Exchange ElectionAction ElectionReply))
    (request : ElectionAction) : Prop :=
  (∀ election, request.election? = some election → election = call.election) ∧
    ∀ held, request.heldTerm? = some held → call.heldTerm? = some held

/-- A reply shows a row some statement of the call answered with, and a renewal or
a resignation reports success only if its statement took effect. -/
def Did (call : ElectionCall) (path : List (Exchange ElectionAction ElectionReply))
    (outcome : ElectionOutcome) : Prop :=
  (∀ lease, outcome.lease? = some lease → ∃ exchange ∈ path, shownLease exchange = some lease) ∧
    ((call.heldTerm?.isSome = true ∧ (outcome.lease?.isSome = true ∨ outcome = .resigned true)) →
      ∃ exchange ∈ path, exchange.request.heldTerm? = call.heldTerm? ∧ tookEffect exchange)

end ElectionCall

/-! ## What a call asks for, and what it returns -/

namespace ElectionCall

/-- The requests of a call; a takeover compares with a clock the call has read. -/
inductive Requests :
    ElectionCall → List (Exchange ElectionAction ElectionReply) → ElectionAction → Prop
  | now {call path} : Requests call path .now
  | newLease {call path} : Requests call path .newLease
  | select {call path} : Requests call path (.select call.election)
  | takeOver {path} {election candidateId leaseId : String} {ttl expires now : Int}
      (read : ⟨.now, now⟩ ∈ path) :
      Requests (.campaign election candidateId ttl) path
        (.takeOver election candidateId leaseId expires now)
  | extend {path} {election leaderId leaseId : String} {term : Nat} {ttl expires now : Int} :
      Requests (.renew election leaderId term leaseId ttl) path
        (.extend election leaderId term leaseId expires now)
  | expire {path} {election leaderId leaseId : String} {term : Nat} {now : Int} :
      Requests (.resign election leaderId term leaseId) path
        (.expire election leaderId term leaseId now)

/-- The outcomes of a call, and the answers they rest on. -/
inductive Returns :
    ElectionCall → List (Exchange ElectionAction ElectionReply) → ElectionOutcome → Prop
  | nothing {call path} {outcome : ElectionOutcome} (unshown : outcome.lease? = none)
      (notResigned : outcome ≠ .resigned true) : Returns call path outcome
  | campaigned {path} {election candidateId : String} {ttl now later : Int} {leader : LeaderLease}
      {exchange : Exchange ElectionAction ElectionReply} (member : exchange ∈ path)
      (shown : shownLease exchange = some leader)
      (named : exchange.request.election? = some election) :
      Returns (.campaign election candidateId ttl) (⟨.now, later⟩ :: ⟨.now, now⟩ :: path)
        (.campaigned
          (decide (now < leader.expireAtMs) && decide (leader.leaderId = candidateId))
          ⟨leader, max (saturate (leader.expireAtMs - later)) 0⟩)
  | renewed {path} {election leaderId leaseId : String} {term : Nat} {ttl expires now later : Int}
      {leader : LeaderLease} :
      Returns (.renew election leaderId term leaseId ttl)
        (⟨.now, later⟩ ::
          ⟨.extend election leaderId term leaseId expires now, .ok (some leader)⟩ :: path)
        (.renewed (some ⟨leader, max (saturate (leader.expireAtMs - later)) 0⟩))
  | resigned {path} {election leaderId leaseId : String} {term : Nat} {now : Int} :
      Returns (.resign election leaderId term leaseId)
        (⟨.expire election leaderId term leaseId now, .ok (1 : Nat)⟩ :: path) (.resigned true)
  | found {path} {election : String} {leader : ElectionLeader} {active : Bool}
      (shown : ∃ exchange ∈ path, shownLease exchange = some leader.lease) :
      Returns (.getLeader election) path (.found (some (active, leader)))

variable {call : ElectionCall} {path : List (Exchange ElectionAction ElectionReply)}
  (election : String)

theorem runs_campaign (candidateId : String) (ttl : Int) :
    Program.Ensures (campaign election candidateId ttl).Requests
      (campaign election candidateId ttl).Returns []
      (ElectionStore.campaign election candidateId ttl) := by
  refine ⟨.now, fun now => ⟨.newLease, fun leaseId => ⟨.takeOver (.tail _ (.head _)), ?_⟩⟩⟩
  rintro (_ | _ | leader)
  · exact .nothing rfl (by simp)
  · refine ⟨.select, ?_⟩
    rintro (_ | _ | leader)
    · exact .nothing rfl (by simp)
    · exact .nothing rfl (by simp)
    · exact ⟨.now, fun now => ⟨.now, fun later => .campaigned (.head _) rfl rfl⟩⟩
  · exact ⟨.now, fun now => ⟨.now, fun later => .campaigned (.head _) rfl rfl⟩⟩

theorem runs_renew (leaderId : String) (term : Nat) (leaseId : String) (ttl : Int) :
    Program.Ensures (renew election leaderId term leaseId ttl).Requests
      (renew election leaderId term leaseId ttl).Returns []
      (ElectionStore.renew election leaderId term leaseId ttl) := by
  unfold ElectionStore.renew
  split
  · exact .nothing rfl (by simp)
  · refine ⟨.now, fun now => ⟨.extend, ?_⟩⟩
    rintro (_ | _ | leader)
    · exact .nothing rfl (by simp)
    · exact .nothing rfl (by simp)
    · exact ⟨.now, fun later => .renewed⟩

theorem runs_resign (leaderId : String) (term : Nat) (leaseId : String) :
    Program.Ensures (resign election leaderId term leaseId).Requests
      (resign election leaderId term leaseId).Returns []
      (ElectionStore.resign election leaderId term leaseId) := by
  unfold ElectionStore.resign
  split
  · exact .nothing rfl (by simp)
  · refine ⟨.now, fun now => ⟨.expire, ?_⟩⟩
    rintro (_ | affected)
    · exact .nothing rfl (by simp)
    · by_cases one : (show Nat from affected) = 1
      · subst one
        exact .resigned
      · exact .nothing rfl (by simpa using one)

theorem runs_get :
    Program.Ensures (getLeader election).Requests (getLeader election).Returns []
      (ElectionStore.get election) := by
  refine ⟨.select, ?_⟩
  rintro (_ | _ | leader)
  · exact .nothing rfl (by simp)
  · exact .nothing rfl (by simp)
  · refine ⟨.now, fun now => ⟨.now, fun later => ?_⟩⟩
    exact .found ⟨_, .tail _ (.tail _ (.head _)), rfl⟩

theorem runs_program (call : ElectionCall) :
    Program.Ensures call.Requests call.Returns [] call.program := by
  unfold program
  split
  · exact .nothing rfl (by simp)
  · cases call with
    | campaign election candidateId ttl => exact runs_campaign election candidateId ttl
    | renew election leaderId term leaseId ttl =>
      exact runs_renew election leaderId term leaseId ttl
    | resign election leaderId term leaseId => exact runs_resign election leaderId term leaseId
    | getLeader election => exact runs_get election

theorem Requests.may {request : ElectionAction} (requested : call.Requests path request) :
    call.May path request := by
  cases requested <;> constructor <;> rintro _ ⟨⟩ <;> rfl

theorem Returns.did {outcome : ElectionOutcome} (returned : call.Returns path outcome) :
    call.Did path outcome := by
  cases returned with
  | nothing unshown notResigned =>
    constructor
    · intro lease shown
      rw [unshown] at shown
      cases shown
    · rintro ⟨_, shown | resigned⟩
      · rw [unshown] at shown
        cases shown
      · exact absurd resigned notResigned
  | campaigned member shown =>
    refine ⟨?_, by rintro ⟨⟨⟩, _⟩⟩
    rintro lease ⟨⟩
    exact ⟨_, .tail _ (.tail _ member), shown⟩
  | renewed =>
    refine ⟨?_, fun _ => ⟨_, .tail _ (.head _), rfl, trivial⟩⟩
    rintro lease ⟨⟩
    exact ⟨_, .tail _ (.head _), rfl⟩
  | resigned => exact ⟨by rintro _ ⟨⟩, fun _ => ⟨_, .head _, rfl, Nat.one_pos⟩⟩
  | found shown =>
    refine ⟨?_, by rintro ⟨⟨⟩, _⟩⟩
    rintro lease ⟨⟩
    exact shown

/-- Every call of the election service keeps to its election and its term, and
reports what its statements answered. -/
theorem ensures_program (call : ElectionCall) :
    Program.Ensures call.May call.Did [] call.program :=
  (call.runs_program.mono fun _ _ => Requests.may).weaken fun _ _ => Returns.did

end ElectionCall

/-! ## Whole runs -/

/-- The actions of a run of the election service, and the state they lead to. -/
abbrev ElectionTrace (initial : ElectionState) (history : List ElectionEntry)
    (current : ElectionState) : Prop :=
  Pool.Trace electionComponent ElectionCall.May initial history current

/-- A row that was there at some time: the present row of its election has a later
term, or the same leader and lease. -/
def LeaderLease.Precedes (old now : LeaderLease) : Prop :=
  now.election = old.election ∧ old.term ≤ now.term ∧
    (old.term = now.term → old.leaderId = now.leaderId ∧ old.leaseId = now.leaseId)

theorem LeaderLease.Precedes.followed {old now new : LeaderLease} (precedes : old.Precedes now)
    (follows : new.Follows now) : old.Precedes new := by
  obtain ⟨sameElection, older, agree⟩ := precedes
  obtain ⟨newElection, ⟨sameTerm, sameLeader, sameLease⟩ | nextTerm⟩ := follows
  · refine ⟨newElection.trans sameElection, sameTerm ▸ older, fun equal => ?_⟩
    have now := agree (equal.trans sameTerm)
    exact ⟨now.1.trans sameLeader.symm, now.2.trans sameLease.symm⟩
  · refine ⟨newElection.trans sameElection, by omega, fun equal => ?_⟩
    omega

theorem LeaderLease.Precedes.refl (row : LeaderLease) : row.Precedes row :=
  ⟨rfl, Nat.le_refl _, fun _ => ⟨rfl, rfl⟩⟩

section Runs

variable {initial current : ElectionState} {history : List ElectionEntry}

/-- Every row that was there after some action precedes the present row of its
election. -/
theorem precedes_of_trace (trace : ElectionTrace initial history current) :
    ∀ entry ∈ history, ∀ row ∈ entry.after.elections.rows,
      ∃ now ∈ current.elections.rows, row.Precedes now := by
  induction trace with
  | start =>
    intro entry member
    cases member
  | crash _ ih => exact ih
  | act _ _ _ performed _ ih =>
    intro entry member row stored
    rcases List.mem_cons.mp member with rfl | older
    · exact ⟨row, stored, .refl row⟩
    · obtain ⟨now, present, precedes⟩ := ih entry older row stored
      obtain ⟨new, newer, follows⟩ := (effect_of_electionPerform performed).rows.1 now present
      exact ⟨new, newer, precedes.followed follows⟩

theorem agree_with_present (trace : ElectionTrace initial history current) {entry : ElectionEntry}
    (listed : entry ∈ history) {row present : LeaderLease}
    (stored : row ∈ entry.after.elections.rows) (there : present ∈ current.elections.rows)
    (sameElection : row.election = present.election) (sameTerm : row.term = present.term) :
    row.leaderId = present.leaderId ∧ row.leaseId = present.leaseId := by
  obtain ⟨now, nowThere, precedes⟩ := precedes_of_trace trace entry listed row stored
  have same : now = present :=
    ElectionTable.eq_of_election_eq nowThere there (precedes.1.trans sameElection)
  subst same
  exact precedes.2.2 sameTerm

/-- Two rows of one election and one term, wherever in a run they are shown, have
one leader and one lease. -/
theorem agree_of_trace (trace : ElectionTrace initial history current) :
    ∀ first ∈ history, ∀ second ∈ history,
      ∀ left ∈ first.after.elections.rows, ∀ right ∈ second.after.elections.rows,
        left.election = right.election → left.term = right.term →
          left.leaderId = right.leaderId ∧ left.leaseId = right.leaseId := by
  induction trace with
  | start =>
    intro first firstListed
    cases firstListed
  | crash _ ih => exact ih
  | act newest choice earlier performed allowed ih =>
    have whole := Pool.Trace.act newest choice earlier performed allowed
    intro first firstListed second secondListed left leftStored right rightStored
      sameElection sameTerm
    rcases List.mem_cons.mp secondListed with rfl | secondOlder
    · exact
        agree_with_present whole firstListed leftStored rightStored sameElection sameTerm
    · rcases List.mem_cons.mp firstListed with rfl | firstOlder
      · have agree :=
          agree_with_present whole secondListed rightStored leftStored
            sameElection.symm sameTerm.symm
        exact ⟨agree.1.symm, agree.2.symm⟩
      · exact
          ih first firstOlder second secondOlder left leftStored
            right rightStored sameElection sameTerm

end Runs

namespace ElectionService

/-- The row of an election stays through every action: leader, lease and term
stay, or the term is the next one. -/
def TermsFollow (service : ElectionService) : Prop :=
  ∀ entry ∈ service.history, ∀ row ∈ entry.before.elections.rows,
    ∃ new ∈ entry.after.elections.rows, new.Follows row

/-- Two replies for one election with one term show one leader and one lease. -/
def RepliesAgree (service : ElectionService) : Prop :=
  ∀ first ∈ service.finished, ∀ second ∈ service.finished, ∀ left right,
    first.result.lease? = some left → second.result.lease? = some right →
      left.election = right.election → left.term = right.term →
        left.leaderId = right.leaderId ∧ left.leaseId = right.leaseId

/-- Once an election is in a higher term, a renewal or a resignation with an older
one has no effect. -/
def StaleTermsFail (service : ElectionService) : Prop :=
  ∀ (newer middle older : List ElectionEntry) (attempt granting : ElectionEntry)
    (row : LeaderLease) (term : Nat),
    service.history = newer ++ attempt :: (middle ++ granting :: older) →
      row ∈ granting.after.elections.rows → term < row.term →
        attempt.request.heldTerm? = some (row.election, term) →
          attempt.after.elections = attempt.before.elections ∧ ¬ tookEffect attempt.exchange

/-- A renewal or a resignation that reported success is in the history as a
statement with its election and term that took effect. -/
def SuccessesRecorded (service : ElectionService) : Prop :=
  ∀ finished ∈ service.finished, ∀ held, finished.call.heldTerm? = some held →
    finished.result.lease?.isSome = true ∨ finished.result = .resigned true →
      ∃ entry ∈ service.history, entry.thread = finished.thread ∧
        entry.request.heldTerm? = some held ∧ tookEffect entry.exchange

/-- An action changes no row of an election its call is not about. -/
def KeepsOthers (service : ElectionService) : Prop :=
  ∀ entry ∈ service.history, ∀ row, row.election ≠ entry.call.election →
    (row ∈ entry.after.elections.rows ↔ row ∈ entry.before.elections.rows)

end ElectionService

section Fencing

variable {initial : ElectionState} {events : List ElectionEvent} {service : ElectionService}

section

variable (scheduled : electionSchedule initial events = some service)

include scheduled

theorem trace_of_electionSchedule :
    ElectionTrace initial service.history service.shared :=
  Pool.trace_of_replay ElectionCall.ensures_program scheduled

theorem termsFollow_of_schedule :
    service.TermsFollow := by
  intro entry member row stored
  have trace := trace_of_electionSchedule scheduled
  obtain ⟨newer, older, shape⟩ := List.append_of_mem member
  rw [shape] at trace
  obtain ⟨_, ⟨choice, performed⟩, _⟩ := trace.cut
  exact (effect_of_electionPerform performed).rows.1 row stored

theorem stored_of_reply {finished : Finished ElectionCall ElectionOutcome}
    (member : finished ∈ service.finished) {lease : LeaderLease}
    (replied : finished.result.lease? = some lease) :
    ∃ entry ∈ service.history, lease ∈ entry.after.elections.rows := by
  have trace := trace_of_electionSchedule scheduled
  have accounted := Pool.accounted_replay ElectionCall.ensures_program scheduled
  obtain ⟨exchange, onPath, shown⟩ := (accounted.finished finished member).1 lease replied
  obtain ⟨entry, listed, _, rfl⟩ := exists_performed_of_mem_ownPath onPath
  refine ⟨entry, listed, ?_⟩
  obtain ⟨newer, older, shape⟩ := List.append_of_mem listed
  rw [shape] at trace
  obtain ⟨_, ⟨choice, performed⟩, _⟩ := trace.cut
  exact (effect_of_electionPerform performed).mem_of_shown shown

theorem repliesAgree_of_schedule :
    service.RepliesAgree := by
  intro first firstListed second secondListed left right firstReplied secondReplied
    sameElection sameTerm
  obtain ⟨entry, listed, stored⟩ := stored_of_reply scheduled firstListed firstReplied
  obtain ⟨other, otherListed, otherStored⟩ := stored_of_reply scheduled secondListed secondReplied
  exact agree_of_trace (trace_of_electionSchedule scheduled) entry listed other otherListed
    left stored right otherStored sameElection sameTerm

theorem staleTermsFail_of_schedule :
    service.StaleTermsFail := by
  intro newer middle older attempt granting row term shape granted higher held
  have trace := trace_of_electionSchedule scheduled
  rw [shape] at trace
  obtain ⟨earlier, ⟨choice, performed⟩, _⟩ := trace.cut
  obtain ⟨now, present, precedes⟩ := precedes_of_trace earlier granting (by simp) row granted
  refine (effect_of_electionPerform performed).stale held fun other stored same => ?_
  have sameRow : other = now :=
    ElectionTable.eq_of_election_eq stored present (same.trans precedes.1.symm)
  have newest := precedes.2.1
  rw [sameRow]
  omega

theorem successesRecorded_of_schedule :
    service.SuccessesRecorded := by
  intro finished member held called success
  have accounted := Pool.accounted_replay ElectionCall.ensures_program scheduled
  obtain ⟨exchange, onPath, asked, effect⟩ :=
    (accounted.finished finished member).2 ⟨by rw [called]; rfl, success⟩
  obtain ⟨entry, listed, own, rfl⟩ := exists_performed_of_mem_ownPath onPath
  exact ⟨entry, listed, own, asked.trans called, effect⟩

theorem keepsOthers_of_schedule :
    service.KeepsOthers := by
  intro entry member row other
  have trace := trace_of_electionSchedule scheduled
  obtain ⟨newer, older, shape⟩ := List.append_of_mem member
  rw [shape] at trace
  obtain ⟨_, ⟨choice, performed⟩, allowed⟩ := trace.cut
  refine (effect_of_electionPerform performed).rows.2 row fun named => ?_
  exact other (allowed.1 row.election named)

end

end Fencing

/-- In every run of the election service, from any table and whatever the clocks
say: terms follow each other, a term belongs to one leader and one lease in all
replies, older terms can change nothing, and elections do not touch each
other. -/
theorem election_fencing (initial : ElectionState) (events : List ElectionEvent)
    (service : ElectionService) (scheduled : electionSchedule initial events = some service) :
    service.TermsFollow ∧ service.RepliesAgree ∧ service.StaleTermsFail ∧
      service.SuccessesRecorded ∧ service.KeepsOthers :=
  ⟨termsFollow_of_schedule scheduled, repliesAgree_of_schedule scheduled,
    staleTermsFail_of_schedule scheduled, successesRecorded_of_schedule scheduled,
    keepsOthers_of_schedule scheduled⟩

/-- One candidate wins, a second one finds it, and wins the next term when the
lease is over; the first one's renewal then fails. -/
def takesOver : List ElectionEvent :=
  [.spawn (.campaign "e" "c1" 10), .advance 0 { clock := 0 },
    .advance 0 { uuid := "u1" }, .advance 0 {}, .advance 0 { clock := 1 },
    .advance 0 { clock := 1 },
    .spawn (.campaign "e" "c2" 10), .advance 1 { clock := 5 },
    .advance 1 { uuid := "u2" }, .advance 1 {}, .advance 1 {},
    .advance 1 { clock := 6 }, .advance 1 { clock := 6 },
    .spawn (.campaign "e" "c2" 10), .advance 2 { clock := 10000 },
    .advance 2 { uuid := "u3" }, .advance 2 {}, .advance 2 { clock := 10001 },
    .advance 2 { clock := 10001 },
    .spawn (.renew "e" "c1" 1 "u1" 10), .advance 3 { clock := 2 }, .advance 3 {}]

theorem election_fencing_takesOver : ∃ service,
    electionSchedule ⟨Table.empty, []⟩ takesOver = some service ∧
      (service.finished.map fun finished =>
          finished.result.lease?.map fun lease => (lease.leaderId, lease.term)) =
        [none, some ("c2", 2), some ("c1", 1), some ("c1", 1)] ∧
      service.TermsFollow ∧ service.RepliesAgree ∧ service.StaleTermsFail ∧
      service.SuccessesRecorded ∧ service.KeepsOthers := by
  refine (exists_some_of_check ?_).imp fun service reached =>
    ⟨reached.1, reached.2, election_fencing _ _ _ reached.1⟩
  decide +kernel

end CanglingBroker
