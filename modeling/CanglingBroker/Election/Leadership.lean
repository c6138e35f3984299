import CanglingBroker.Election.Fencing
import CanglingBroker.Election.Handle

/-!
# At most one handle leads

A handle counts the time its lease has left from the moment it takes the reply, the broker
from the moment it built it, so the handle is safe as long as that difference stays within
the safety margin.  `ElectionWorld.Careful` says of one step that it takes no lease from a
handle that believes in it.
-/

namespace CanglingBroker

open Foundation

/-! ## The row of an election after a statement -/

section Rows

variable {table : ElectionTable} {election : String} {row : LeaderLease}

theorem row?_update (guard : LeaderLease → Bool) (assignment : ElectionAssignment)
    (found : table.row? election = some row) :
    ElectionTable.row? (table.update guard assignment) election =
      some (Table.rewrite guard assignment row) := by
  obtain ⟨member, same⟩ := ElectionTable.row?_eq_some_iff.mp found
  refine ElectionTable.row?_eq_some_iff.mpr ⟨?_, ?_⟩
  · exact Table.mem_update.mpr ⟨row, member, rfl⟩
  · exact (Table.primary_rewrite guard assignment row).trans same

theorem row?_insertOrIgnore {new : LeaderLease} (found : table.row? election = some row) :
    ElectionTable.row? (table.insertOrIgnore new) election = some row := by
  obtain ⟨member, same⟩ := ElectionTable.row?_eq_some_iff.mp found
  exact ElectionTable.row?_eq_some_iff.mpr ⟨Table.mem_insertOrIgnore_of_mem member, same⟩

/-- What one action can make of the row of an election. -/
inductive RowMove (election : String) (row : LeaderLease) (after : ElectionTable) :
    ElectionAction → Prop
  | kept (request : ElectionAction) (found : after.row? election = some row) :
      RowMove election row after request
  | taken (candidateId leaseId : String) (expires now : Int)
      (ended : row.expireAtMs ≤ now) :
      RowMove election row after (.takeOver election candidateId leaseId expires now)
  | extended (leaderId : String) (term : Nat) (leaseId : String) (expires now : Int)
      (held : row.holds election leaderId term leaseId now = true)
      (found : after.row? election = some ((endLeaseAt expires).set row)) :
      RowMove election row after (.extend election leaderId term leaseId expires now)
  | resigned (leaderId : String) (term : Nat) (leaseId : String) (now : Int)
      (held : row.holds election leaderId term leaseId now = true)
      (found : after.row? election = some ((endLeaseAt now).set row)) :
      RowMove election row after (.expire election leaderId term leaseId now)

theorem row?_setEnd (name leaderId : String) (term : Nat) (leaseId : String) (expires now : Int)
    (found : table.row? election = some row) :
    ElectionTable.row? (table.setEnd name leaderId term leaseId expires now).2 election = some row ∨
      name = election ∧ row.holds election leaderId term leaseId now = true ∧
        ElectionTable.row? (table.setEnd name leaderId term leaseId expires now).2
          election = some ((endLeaseAt expires).set row) := by
  have rewritten :=
    row?_update (LeaderLease.holds name leaderId term leaseId now) (endLeaseAt expires) found
  rw [Table.rewrite] at rewritten
  split at rewritten
  · next held =>
    have same : name = election :=
      (holds_election row held).symm.trans (ElectionTable.row?_eq_some_iff.mp found).2
    subst same
    exact .inr ⟨rfl, held, rewritten⟩
  · exact .inl rewritten

theorem row?_takeOver (name candidateId leaseId : String) (expires now : Int)
    (found : table.row? election = some row) :
    ElectionTable.row? (table.takeOver name candidateId leaseId expires now).2 election = some row ∨
      name = election ∧ row.expireAtMs ≤ now := by
  unfold ElectionTable.takeOver
  split
  · exact .inl (row?_insertOrIgnore found)
  · split
    · have rewritten :=
        row?_update (LeaderLease.isOver name now) (succeedBy candidateId leaseId expires) found
      rw [Table.rewrite] at rewritten
      split at rewritten
      · next ended =>
        have same : name = election :=
          (isOver_election row ended).symm.trans (ElectionTable.row?_eq_some_iff.mp found).2
        rw [LeaderLease.isOver, decide_eq_true_eq] at ended
        exact .inr ⟨same, ended.2⟩
      · exact .inl rewritten
    · exact .inl found

end Rows

section Perform

variable {choice : ElectionChoice} {before after : ElectionState}
  {request : ElectionAction} {answer : ElectionReply request}

theorem rowMove_of_effect (effect : ElectionEffect before request answer after)
    {election : String} {row : LeaderLease} (found : before.elections.row? election = some row) :
    RowMove election row after.elections request := by
  cases effect with
  | idle same =>
    rw [same]
    exact .kept _ found
  | tookOver name candidateId leaseId expires now =>
    rcases row?_takeOver name candidateId leaseId expires now found with kept | ⟨rfl, ended⟩
    · exact .kept _ kept
    · exact .taken candidateId leaseId expires now ended
  | extended name leaderId term leaseId expires now =>
    rcases row?_setEnd name leaderId term leaseId expires now found with kept | ⟨rfl, held, moved⟩
    · exact .kept _ kept
    · exact .extended leaderId term leaseId expires now held moved
  | resigned name leaderId term leaseId now =>
    rcases row?_setEnd name leaderId term leaseId now now found with kept | ⟨rfl, held, moved⟩
    · exact .kept _ kept
    · exact .resigned leaderId term leaseId now held moved
  | selected => exact .kept _ found

/-- A statement answers with a row of its election, and a renewal with a row of
its leader. -/
theorem owner_of_shownLease (effect : ElectionEffect before request answer after)
    {row : LeaderLease} (shown : shownLease ⟨request, answer⟩ = some row) :
    request.election? = some row.election ∧ ∀ election leaderId term leaseId expires now,
        request = .extend election leaderId term leaseId expires now → row.leaderId = leaderId := by
  cases effect with
  | idle _ hidden =>
    rw [hidden] at shown
    cases shown
  | tookOver =>
    exact ⟨congrArg some (takeOver_returned shown).2.symm, by rintro _ _ _ _ _ _ ⟨⟩⟩
  | extended =>
    refine ⟨congrArg some (setEnd_returned shown).2.1.symm, ?_⟩
    rintro _ _ _ _ _ _ ⟨⟩
    obtain ⟨stored, found, rfl⟩ := Option.map_eq_some_iff.mp shown
    have held := List.find?_some found
    rw [LeaderLease.holds, decide_eq_true_eq] at held
    exact held.2.1
  | resigned => cases shown
  | selected =>
    exact ⟨congrArg some (ElectionTable.row?_eq_some_iff.mp shown).2.symm,
      by rintro _ _ _ _ _ _ ⟨⟩⟩

end Perform

/-! ## What a call asks for, and what its reply rests on -/

def ElectionOutcome.granted? : ElectionOutcome → Option ElectionLeader
  | .campaigned true leader => some leader
  | .renewed leader => leader
  | _ => none

namespace ElectionCall

/-- A takeover compares with a clock the call has read, and only a resignation
gives a lease back. -/
def Asks (call : ElectionCall) (path : List (Exchange ElectionAction ElectionReply)) :
    ElectionAction → Prop
  | .takeOver _ _ _ _ now => ⟨ElectionAction.now, now⟩ ∈ path
  | .expire election leaderId term leaseId _ => call = .resign election leaderId term leaseId
  | _ => True

/-- The statement answered with this row for the caller. -/
def Shows (call : ElectionCall) (exchange : Exchange ElectionAction ElectionReply)
    (lease : LeaderLease) : Prop :=
  shownLease exchange = some lease ∧
    match call with
    | .campaign election candidateId _ =>
      exchange.request.election? = some election ∧ lease.leaderId = candidateId
    | .renew election leaderId term leaseId _ =>
      ∃ expires now, exchange.request = .extend election leaderId term leaseId expires now
    | _ => False

/-- A reply that grants the lease shows a row some statement answered with, and
its last action was to read the clock for the time that is left. -/
def Grants (call : ElectionCall) (path : List (Exchange ElectionAction ElectionReply))
    (outcome : ElectionOutcome) : Prop :=
  ∀ leader, outcome.granted? = some leader →
    ∃ (now : Int) (earlier : List (Exchange ElectionAction ElectionReply)),
      path = ⟨ElectionAction.now, now⟩ :: earlier ∧
        leader.remainingTtlMs = max (saturate (leader.lease.expireAtMs - now)) 0 ∧
        ∃ exchange ∈ path, call.Shows exchange leader.lease

end ElectionCall

namespace ElectionCall

variable {call : ElectionCall} {path : List (Exchange ElectionAction ElectionReply)}

theorem Requests.asks {request : ElectionAction} (requested : call.Requests path request) :
    call.Asks path request := by
  cases requested with
  | takeOver read => exact read
  | expire => exact rfl
  | now | newLease | select | extend => exact trivial

theorem Returns.grants {outcome : ElectionOutcome} (returned : call.Returns path outcome) :
    call.Grants path outcome := by
  intro winner granted
  cases returned with
  | nothing unshown =>
    have shown : outcome.lease? = some winner.lease := by
      unfold ElectionOutcome.granted? at granted
      split at granted
      · cases granted
        rfl
      · cases granted
        rfl
      · cases granted
    rw [unshown] at shown
    cases shown
  | campaigned member shown named =>
    simp only [ElectionOutcome.granted?] at granted
    split at granted
    · next won shape =>
      cases granted
      simp only [ElectionOutcome.campaigned.injEq, Bool.and_eq_true, decide_eq_true_eq] at shape
      obtain ⟨⟨_, own⟩, rfl⟩ := shape
      exact ⟨_, _, rfl, rfl, _, .tail _ (.tail _ member), shown, named, own⟩
    · next other shape => cases shape
    · cases granted
  | renewed =>
    cases granted
    exact ⟨_, _, rfl, rfl, _, .tail _ (.head _), rfl, _, _, rfl⟩
  | resigned | found => cases granted

theorem grants_program (call : ElectionCall) :
    Program.Ensures call.Asks call.Grants [] call.program :=
  (call.runs_program.mono fun _ _ => Requests.asks).weaken fun _ _ => Returns.grants

end ElectionCall

/-! ## Careful steps -/

def ElectionWorker.isWinning : ElectionWorker → Bool
  | .accepted _ true (some _) => true
  | _ => false

/-- The reply that grants the lease, while the thread of the handle has it in its
hands. -/
def ElectionWorker.holding? : ElectionWorker → Option (Nat × ElectionLeader)
  | .renewed thread (some leader) => some (thread, leader)
  | .campaigned thread true leader => some (thread, leader)
  | .accepted thread true (some leader) => some (thread, leader)
  | _ => none

/-- The handle was told to close, and yet it leads or is about to. -/
def ElectionHandle.Lingers (handle : ElectionHandle) (nanoTime : Nat) : Prop :=
  handle.running = false ∧ (handle.isLeader nanoTime = true ∨ handle.worker.isWinning = true)

instance (handle : ElectionHandle) (nanoTime : Nat) :
    Decidable (handle.Lingers nanoTime) :=
  inferInstanceAs (Decidable (_ ∧ _))

def readClock? : Exchange ElectionAction ElectionReply → Option Int
  | ⟨.now, now⟩ => some now
  | _ => none

namespace ElectionWorld

def row? (world : ElectionWorld) (election : String) : Option LeaderLease :=
  world.broker.shared.elections.row? election

def readAt? (world : ElectionWorld) (thread : Nat) : Option Int :=
  (ownPath thread world.broker.history).head?.bind readClock?

/-- A takeover does not come between the resignation of a handle and its end, and
a renewal does not move the end of a lease back. -/
def CarefulAction (world : ElectionWorld) : ElectionAction → Prop
  | .takeOver election _ _ _ now =>
    ∀ row ∈ world.row? election, row.expireAtMs ≤ now →
      ∀ handle ∈ world.handles, handle.election = election → ¬ handle.Lingers world.clock
  | .extend election leaderId term leaseId expires now =>
    ∀ row ∈ world.row? election,
      row.holds election leaderId term leaseId now = true → row.expireAtMs ≤ expires
  | _ => True

/-- A reply that makes a handle leader is acted upon within the safety margin,
counted from the clock the broker built it with. -/
def CarefulReply (world : ElectionWorld) (handle : ElectionHandle) : Prop :=
  match handle.worker with
  | .accepted thread true (some _) =>
    ∀ now ∈ world.readAt? thread, (world.clock : Int) ≤ millisToNanos (now + handle.safetyMillis)
  | _ => True

/-- The step takes no lease from a handle that believes in it. -/
def Careful (world : ElectionWorld) : ElectionWorldEvent → Prop
  | .broker thread _ _ => ∀ request ∈ world.broker.next? thread, world.CarefulAction request
  | .work index _ => ∀ handle ∈ world.handles[index]?, world.CarefulReply handle
  | _ => True

instance (world : ElectionWorld) (request : ElectionAction) :
    Decidable (world.CarefulAction request) := by
  unfold CarefulAction
  split <;> infer_instance

instance (world : ElectionWorld) (handle : ElectionHandle) :
    Decidable (world.CarefulReply handle) := by
  unfold CarefulReply
  split <;> infer_instance

instance (world : ElectionWorld) (event : ElectionWorldEvent) :
    Decidable (world.Careful event) := by
  unfold Careful
  split <;> infer_instance

/-! ## The invariant -/

def Closed (world : ElectionWorld) (election candidateId : String) : Prop :=
  ∃ handle ∈ world.handles,
    handle.election = election ∧ handle.candidateId = candidateId ∧ handle.running = false

/-- The row of the election is the candidate's, and ends no earlier. -/
def Holds (world : ElectionWorld) (election candidateId : String) (nanos : Int) :
    Prop :=
  ∃ row, world.row? election = some row ∧ row.leaderId = candidateId ∧
    nanos ≤ millisToNanos row.expireAtMs

def Names (world : ElectionWorld) (election candidateId : String) : Prop :=
  ∃ row, world.row? election = some row ∧ row.leaderId = candidateId

/-- A handle may rely on its lease until then: that time has come, or the row is
still the handle's, and lasts until then unless the handle was told to close. -/
def MayRely (world : ElectionWorld) (handle : ElectionHandle) (nanos : Int) : Prop :=
  nanos ≤ world.clock ∨ world.Holds handle.election handle.candidateId nanos ∨
    handle.running = false ∧ world.Names handle.election handle.candidateId

/-- The reply to a campaign or a renewal of the handle grants it the lease. -/
def Granted (world : ElectionWorld) (handle : ElectionHandle) (thread : Nat)
    (leader : ElectionLeader) : Prop :=
  ∃ finished ∈ world.broker.finished,
    finished.thread = thread ∧ finished.result.granted? = some leader ∧
      (finished.call = handle.campaignCall ∨
        ∃ term leaseId, finished.call = handle.renewCall term leaseId)

/-- What a handle knows is backed by the broker. -/
structure Covers (world : ElectionWorld) (handle : ElectionHandle) : Prop where
  closing : handle.closer ≠ .notCalled → handle.running = false
  granted :
    ∀ thread leader, handle.worker.holding? = some (thread, leader) →
      world.Granted handle thread leader
  winning :
    ∀ thread leader, handle.worker = .accepted thread true (some leader) →
      world.MayRely handle (millisToNanos leader.lease.expireAtMs)
  leading : handle.leading = true → world.MayRely handle handle.validUntilNanos

/-- The invariant of careful runs. -/
structure Sound (world : ElectionWorld) : Prop where
  accounted :
    Pool.Accounted ElectionCall.Asks ElectionCall.Grants world.broker
  clocks :
    ∀ entry ∈ world.broker.history, ∀ now : Int,
      entry.exchange = ⟨ElectionAction.now, now⟩ → now ≤ world.nowMillis
  owners :
    ∀ entry ∈ world.broker.history, ∀ row, shownLease entry.exchange = some row →
      entry.request.election? = some row.election ∧ ∀ election leaderId term leaseId expires now,
          entry.request = .extend election leaderId term leaseId expires now →
            row.leaderId = leaderId
  shown :
    ∀ entry ∈ world.broker.history, ∀ row, shownLease entry.exchange = some row →
      millisToNanos row.expireAtMs ≤ world.clock ∨
        world.Holds row.election row.leaderId (millisToNanos row.expireAtMs) ∨
        world.Closed row.election row.leaderId
  resigns :
    ∀ thread running, world.broker.threads thread = some running → ∀ election leaderId term leaseId,
        running.call = .resign election leaderId term leaseId → world.Closed election leaderId
  distinct :
    (world.handles.map fun handle => (handle.election, handle.candidateId)).Nodup
  covered : ∀ handle ∈ world.handles, world.Covers handle

section Reliance

variable {world reached : ElectionWorld} {handle moved : ElectionHandle} {nanos earlier : Int}

theorem MayRely.mono (relies : world.MayRely handle nanos) (sooner : earlier ≤ nanos) :
    world.MayRely handle earlier := by
  rcases relies with past | ⟨row, found, own, lasts⟩ | closed
  · exact .inl (sooner.trans past)
  · exact .inr (.inl ⟨row, found, own, sooner.trans lasts⟩)
  · exact .inr (.inr closed)

theorem MayRely.renamed (relies : world.MayRely handle nanos)
    (election : moved.election = handle.election)
    (candidate : moved.candidateId = handle.candidateId)
    (closes : handle.running = false → moved.running = false) :
    world.MayRely moved nanos := by
  unfold MayRely
  rw [election, candidate]
  rcases relies with past | holds | ⟨closed, names⟩
  · exact .inl past
  · exact .inr (.inl holds)
  · exact .inr (.inr ⟨closes closed, names⟩)

theorem MayRely.later (relies : world.MayRely handle nanos)
    (sameShared : reached.broker.shared = world.broker.shared)
    (later : world.clock ≤ reached.clock) : reached.MayRely handle nanos := by
  unfold MayRely Holds Names row? at relies ⊢
  rw [sameShared]
  rcases relies with past | held
  · exact .inl (past.trans (Int.ofNat_le.mpr later))
  · exact .inr held

theorem Sound.same_handle (sound : world.Sound) {other : ElectionHandle}
    (member : handle ∈ world.handles) (otherMember : other ∈ world.handles)
    (sameElection : handle.election = other.election)
    (sameCandidate : handle.candidateId = other.candidateId) : handle = other :=
  List.inj_on_of_nodup_map sound.distinct member otherMember (Prod.ext sameElection sameCandidate)

theorem Sound.running_false (sound : world.Sound) (member : handle ∈ world.handles)
    (closed : world.Closed handle.election handle.candidateId) :
    handle.running = false := by
  obtain ⟨other, otherMember, sameElection, sameCandidate, stopped⟩ := closed
  have same := sound.same_handle member otherMember sameElection.symm sameCandidate.symm
  rw [same]
  exact stopped

/-! ### Replies -/

variable {leader : ElectionLeader} {thread : Nat}

/-- A granted lease is a row some statement answered with, the handle's own. -/
theorem Sound.lease_of_granted (sound : world.Sound)
    (granted : world.Granted handle thread leader) :
    leader.lease.election = handle.election ∧ leader.lease.leaderId = handle.candidateId ∧
      ∃ entry ∈ world.broker.history, shownLease entry.exchange = some leader.lease := by
  obtain ⟨finished, member, _, result, called⟩ := granted
  obtain ⟨_, _, _, _, exchange, onPath, shown, backed⟩ :=
    sound.accounted.finished finished member leader result
  obtain ⟨entry, listed, _, rfl⟩ := exists_performed_of_mem_ownPath onPath
  obtain ⟨named, owned⟩ := sound.owners entry listed leader.lease shown
  rcases called with campaign | ⟨term, leaseId, renew⟩
  · rw [campaign] at backed
    have same : some handle.election = some leader.lease.election := backed.1.symm.trans named
    exact ⟨(Option.some.inj same).symm, backed.2, entry, listed, shown⟩
  · rw [renew] at backed
    obtain ⟨expires, now, asked⟩ := backed
    have sameRequest :
        entry.request = .extend handle.election handle.candidateId term leaseId expires now :=
      asked
    refine ⟨?_, owned _ _ _ _ _ _ sameRequest, entry, listed, shown⟩
    rw [sameRequest] at named
    exact (Option.some.inj named).symm

theorem Sound.mayRely_of_granted (sound : world.Sound) (member : handle ∈ world.handles)
    (runs : handle.running = true) (granted : world.Granted handle thread leader) :
    world.MayRely handle (millisToNanos leader.lease.expireAtMs) := by
  obtain ⟨sameElection, sameLeader, entry, listed, shown⟩ := sound.lease_of_granted granted
  have backed := sound.shown entry listed leader.lease shown
  rw [sameElection, sameLeader] at backed
  rcases backed with past | holds | closed
  · exact .inl past
  · exact .inr (.inl holds)
  · have stopped := sound.running_false member closed
    rw [runs] at stopped
    cases stopped

/-- The time left in a granted reply is counted from the last clock the broker
read for it. -/
theorem Sound.readAt_of_granted (sound : world.Sound)
    (granted : world.Granted handle thread leader) :
    ∃ now, world.readAt? thread = some now ∧
      leader.remainingTtlMs = max (saturate (leader.lease.expireAtMs - now)) 0 := by
  obtain ⟨finished, member, own, result, _⟩ := granted
  obtain ⟨now, earlier, path, remaining, _⟩ :=
    sound.accounted.finished finished member leader result
  refine ⟨now, ?_, remaining⟩
  rw [readAt?, ← own, path]
  rfl

end Reliance

/-! ## The steps of a handle -/

section Handles

variable {world : ElectionWorld} {handle moved : ElectionHandle}

/-- What every step of a handle keeps, and whose lease it gives back. -/
structure Moved (handle moved : ElectionHandle) (sent : Option ElectionCall) :
    Prop where
  election : moved.election = handle.election
  candidate : moved.candidateId = handle.candidateId
  closes : handle.running = false → moved.running = false
  resigns :
    ∀ election leaderId term leaseId, sent = some (.resign election leaderId term leaseId) →
        election = handle.election ∧ leaderId = handle.candidateId ∧ moved.running = false

section

variable (covers : world.Covers handle)

include covers

/-- A step after which the handle holds no granted reply and leads only as it did
before. -/
theorem Covers.rest (election : moved.election = handle.election)
    (candidate : moved.candidateId = handle.candidateId)
    (running : moved.running = handle.running)
    (closing : moved.closer ≠ .notCalled → moved.running = false)
    (holding : moved.worker.holding? = none)
    (leads :
      moved.leading = true →
        handle.leading = true ∧ moved.validUntilNanos = handle.validUntilNanos) :
    world.Covers moved where
  closing := closing
  granted := by
    intro thread leader held
    rw [holding] at held
    cases held
  winning := by
    intro thread leader accepted
    rw [accepted] at holding
    cases holding
  leading := by
    intro leading
    obtain ⟨before, same⟩ := leads leading
    rw [same]
    exact (covers.leading before).renamed election candidate (running.trans ·)

theorem Covers.stop : world.Covers handle.stop :=
  covers.rest rfl rfl rfl covers.closing rfl nofun

theorem Covers.callFailed (nanoTime : Nat) :
    world.Covers (handle.callFailed nanoTime) := by
  unfold ElectionHandle.callFailed
  split
  · exact covers.stop
  · split
    · exact covers.rest rfl rfl rfl covers.closing rfl nofun
    · exact covers.rest rfl rfl rfl covers.closing rfl fun leading => ⟨leading, rfl⟩

theorem Covers.poll (nanoTime thread : Nat) :
    world.Covers (handle.poll nanoTime thread).1 := by
  unfold ElectionHandle.poll
  split
  · exact covers.stop
  · split
    · exact covers.rest rfl rfl rfl covers.closing rfl fun leading => ⟨leading, rfl⟩
    · exact covers.rest rfl rfl rfl covers.closing rfl fun leading => ⟨leading, rfl⟩

theorem Covers.hold {worker : ElectionWorker}
    (granted :
      ∀ thread leader, worker.holding? = some (thread, leader) → world.Granted handle thread leader)
    (winning :
      ∀ thread leader, worker = .accepted thread true (some leader) →
        world.MayRely handle (millisToNanos leader.lease.expireAtMs)) :
    world.Covers { handle with worker := worker } where
  closing := covers.closing
  granted := granted
  winning := winning
  leading := covers.leading

end

theorem remaining_le {expires now remaining : Int}
    (counted : remaining = max (saturate (expires - now)) 0) (positive : 0 < remaining) :
    remaining ≤ expires - now := by
  unfold saturate at counted
  omega

variable {thread : Nat} {lost : Bool} {sent : Option ElectionCall}

/-- A handle that acts on a granted reply in time relies on no more than its
lease. -/
theorem Covers.becomeLeader (sound : world.Sound) (covers : world.Covers handle)
    {leader : ElectionLeader} (accepted : handle.worker = .accepted thread true (some leader))
    (careful : world.CarefulReply handle) :
    world.Covers { handle.becomeLeader leader world.clock with worker := .looping } := by
  unfold ElectionHandle.becomeLeader
  dsimp only
  split
  · exact covers.rest rfl rfl rfl covers.closing rfl nofun
  · next lasts =>
    refine ⟨covers.closing, nofun, nofun, fun _ => ?_⟩
    have granted : world.Granted handle thread leader :=
      covers.granted thread leader (by rw [accepted]; rfl)
    obtain ⟨now, read, remaining⟩ := sound.readAt_of_granted granted
    rw [CarefulReply, accepted] at careful
    have inTime := careful now read
    have left := remaining_le remaining (by omega)
    have relies := covers.winning thread leader accepted
    refine MayRely.renamed (relies.mono ?_) rfl rfl id
    unfold millisToNanos at inTime ⊢
    dsimp only
    omega

theorem Covers.act (sound : world.Sound) (covers : world.Covers handle) {thread : Nat}
    {won : Bool} {leader : Option ElectionLeader}
    (accepted : handle.worker = .accepted thread won leader) (careful : world.CarefulReply handle) :
    world.Covers (handle.act world.clock won leader) := by
  unfold ElectionHandle.act
  split
  · exact covers.becomeLeader sound accepted careful
  · exact covers.rest rfl rfl rfl covers.closing rfl nofun

theorem finished_of_reply {call : ElectionCall} {outcome : ElectionOutcome}
    (replied : world.reply? thread call = some outcome) :
    ∃ finished ∈ world.broker.finished,
      finished.thread = thread ∧ finished.call = call ∧ finished.result = outcome := by
  obtain ⟨finished, found, result⟩ := Option.map_eq_some_iff.mp replied
  have same := List.find?_some found
  rw [decide_eq_true_eq] at same
  exact ⟨finished, List.mem_of_find?_eq_some found, same.1, same.2, result⟩

theorem granted_of_reply {call : ElectionCall} {outcome : ElectionOutcome}
    {leader : ElectionLeader} (replied : world.reply? thread call = some outcome)
    (grants : outcome.granted? = some leader)
    (own : call = handle.campaignCall ∨ ∃ term leaseId, call = handle.renewCall term leaseId) :
    world.Granted handle thread leader := by
  obtain ⟨finished, listed, sameThread, rfl, rfl⟩ := finished_of_reply replied
  exact ⟨finished, listed, sameThread, grants, own⟩

theorem Sound.accept (sound : world.Sound) (member : handle ∈ world.handles)
    (runs : handle.running = true) {worker : ElectionWorker}
    (same : worker.holding? = handle.worker.holding?) :
    world.Covers { handle with worker := worker } := by
  have covers := sound.covered handle member
  have granted (thread : Nat) (leader : ElectionLeader)
      (held : worker.holding? = some (thread, leader)) :
      world.Granted handle thread leader :=
    covers.granted thread leader (same.symm.trans held)
  refine covers.hold granted fun thread leader accepted => ?_
  refine sound.mayRely_of_granted member runs (granted thread leader ?_)
  rw [accepted]
  rfl

theorem Sound.work (sound : world.Sound) (member : handle ∈ world.handles)
    (careful : world.CarefulReply handle)
    (worked : handle.work world.clock thread world.reply? lost = some (moved, sent)) :
    world.Covers moved := by
  have covers := sound.covered handle member
  unfold ElectionHandle.work at worked
  split at worked
  · have polled := covers.poll world.clock thread
    rw [Option.some.inj worked] at polled
    exact polled
  · next call sentAt term leaseId phase =>
    split at worked
    · cases worked
      exact covers.callFailed world.clock
    · split at worked
      · split at worked
        · cases worked
        · next leader replied =>
          cases worked
          refine covers.hold (fun number winner held => ?_) nofun
          cases leader with
          | none => cases held
          | some =>
            cases held
            exact granted_of_reply replied rfl (.inr ⟨term, leaseId, rfl⟩)
        · cases worked
          exact covers.callFailed world.clock
      · cases worked
  · next call sentAt phase =>
    split at worked
    · cases worked
      exact covers.callFailed world.clock
    · split at worked
      · split at worked
        · cases worked
        · next won leader replied =>
          cases worked
          refine covers.hold (fun number winner held => ?_) nofun
          cases won with
          | false => cases held
          | true =>
            cases held
            exact granted_of_reply replied rfl (.inl rfl)
        · cases worked
          exact covers.callFailed world.clock
      · cases worked
  · next call leader phase =>
    split at worked
    · cases worked
      exact covers.stop
    · next running =>
      cases worked
      refine sound.accept member (by simpa using running) ?_
      rw [phase]
      cases leader <;> rfl
  · next call won leader phase =>
    split at worked
    · split at worked <;> cases worked
      · exact covers.rest rfl rfl rfl covers.closing rfl fun leading => ⟨leading, rfl⟩
      · exact covers.stop
    · next running =>
      cases worked
      refine sound.accept member (by simpa using running) ?_
      rw [phase]
      cases won <;> rfl
  · next call won leader phase =>
    cases worked
    exact covers.act sound phase careful
  · split at worked <;> cases worked
    exact covers.stop
  · cases worked

variable {reply? : Nat → ElectionCall → Option ElectionOutcome}

/-- A step of the thread keeps the handle's name, and gives a lease back only
after the handle was told to close. -/
theorem moved_of_work {nanoTime : Nat}
    (worked : handle.work nanoTime thread reply? lost = some (moved, sent)) :
    Moved handle moved sent := by
  have failed : Moved handle (handle.callFailed nanoTime) none := by
    unfold ElectionHandle.callFailed
    split
    · exact ⟨rfl, rfl, id, nofun⟩
    · split <;> exact ⟨rfl, rfl, id, nofun⟩
  unfold ElectionHandle.work at worked
  split at worked
  · rw [Option.some.injEq, ElectionHandle.poll] at worked
    split at worked
    · cases worked
      exact ⟨rfl, rfl, id, nofun⟩
    · split at worked <;> cases worked <;> exact ⟨rfl, rfl, id, nofun⟩
  -- The answers to a request for the lease and to its renewal.
  iterate 2
    · split at worked
      · cases worked
        exact failed
      · split at worked
        · split at worked <;> cases worked
          · exact ⟨rfl, rfl, id, nofun⟩
          · exact failed
        · cases worked
  · split at worked <;> cases worked <;> exact ⟨rfl, rfl, id, nofun⟩
  · split at worked
    · next stopped =>
      split at worked <;> cases worked
      · refine ⟨rfl, rfl, id, ?_⟩
        rintro _ _ _ _ ⟨⟩
        exact ⟨rfl, rfl, by simpa using stopped⟩
      · exact ⟨rfl, rfl, id, nofun⟩
    · cases worked
      exact ⟨rfl, rfl, id, nofun⟩
  · cases worked
    unfold ElectionHandle.act
    split
    · unfold ElectionHandle.becomeLeader
      dsimp only
      split <;> exact ⟨rfl, rfl, id, nofun⟩
    · exact ⟨rfl, rfl, id, nofun⟩
  · split at worked <;> cases worked
    exact ⟨rfl, rfl, id, nofun⟩
  · cases worked

/-- A step of `close` leaves the handle covered; a resignation is sent after
`running` was cleared. -/
theorem Covers.close (covers : world.Covers handle) {nanoTime : Nat}
    (closed : handle.close nanoTime thread reply? lost = some (moved, sent)) :
    world.Covers moved ∧ Moved handle moved sent := by
  have follower (called : handle.closer ≠ .notCalled) (leader : Option ElectionLeader) :
      world.Covers { handle.becomeFollower leader with closer := .closed } :=
    ⟨fun _ => covers.closing called, covers.granted, covers.winning, nofun⟩
  unfold ElectionHandle.close at closed
  split at closed
  · cases closed
    refine ⟨⟨fun _ => rfl, covers.granted, ?_, ?_⟩, rfl, rfl, fun _ => rfl, nofun⟩
    · intro number leader accepted
      exact (covers.winning number leader accepted).renamed rfl rfl fun _ => rfl
    · intro leading
      exact (covers.leading leading).renamed rfl rfl fun _ => rfl
  · next phase =>
    have called : handle.closer ≠ .notCalled := by rw [phase]; nofun
    split at closed <;> cases closed
    · refine
        ⟨⟨fun _ => covers.closing called, covers.granted, covers.winning,
          covers.leading⟩, rfl, rfl, id, ?_⟩
      rintro _ _ _ _ ⟨⟩
      exact ⟨rfl, rfl, covers.closing called⟩
    · exact ⟨follower called _, rfl, rfl, id, nofun⟩
  · next number leader phase =>
    have called : handle.closer ≠ .notCalled := by rw [phase]; nofun
    split at closed <;> cases closed
    exact ⟨follower called _, rfl, rfl, id, nofun⟩
  · cases closed

end Handles

/-! ## The steps that leave the table alone -/

section Quiet

variable {world reached : ElectionWorld}

/-- The table and the history stay, time goes on, and no closed handle is
opened. -/
structure Quiet (world reached : ElectionWorld) : Prop where
  later : world.clock ≤ reached.clock
  shared : reached.broker.shared = world.broker.shared
  history : reached.broker.history = world.broker.history
  finished :
    ∀ finished ∈ world.broker.finished, finished ∈ reached.broker.finished
  accounted :
    Pool.Accounted ElectionCall.Asks ElectionCall.Grants reached.broker
  running :
    ∀ thread running, reached.broker.threads thread = some running →
      world.broker.threads thread = some running ∨ ∀ election leaderId term leaseId,
          running.call = .resign election leaderId term leaseId → reached.Closed election leaderId
  closed :
    ∀ election candidateId, world.Closed election candidateId → reached.Closed election candidateId

theorem nowMillis_le (later : world.clock ≤ reached.clock) : world.nowMillis ≤ reached.nowMillis :=
  Int.ofNat_le.mpr (Nat.div_le_div_right later)

theorem Covers.quiet {handle : ElectionHandle} (covers : world.Covers handle)
    (quiet : Quiet world reached) : reached.Covers handle where
  closing := covers.closing
  granted := by
    intro thread leader held
    obtain ⟨finished, member, own⟩ := covers.granted thread leader held
    exact ⟨finished, quiet.finished finished member, own⟩
  winning := by
    intro thread leader accepted
    exact (covers.winning thread leader accepted).later quiet.shared quiet.later
  leading := by
    intro leading
    exact (covers.leading leading).later quiet.shared quiet.later

theorem Sound.quiet (sound : world.Sound) (quiet : Quiet world reached)
    (distinct : (reached.handles.map fun handle => (handle.election, handle.candidateId)).Nodup)
    (covered : ∀ handle ∈ reached.handles, world.Covers handle) : reached.Sound where
  accounted := quiet.accounted
  clocks := by
    rw [quiet.history]
    intro entry member now read
    exact (sound.clocks entry member now read).trans (nowMillis_le quiet.later)
  owners := by
    rw [quiet.history]
    exact sound.owners
  shown := by
    rw [quiet.history]
    intro entry member row shown
    rcases sound.shown entry member row shown with past | holds | closed
    · exact .inl (past.trans (Int.ofNat_le.mpr quiet.later))
    · refine .inr (.inl ?_)
      unfold Holds row? at holds ⊢
      rw [quiet.shared]
      exact holds
    · exact .inr (.inr (quiet.closed _ _ closed))
  resigns := by
    intro thread running found election leaderId term leaseId called
    rcases quiet.running thread running found with before | new
    · exact
        quiet.closed _ _ (sound.resigns thread running before election leaderId term leaseId called)
    · exact new election leaderId term leaseId called
  distinct := distinct
  covered := fun handle member => (covered handle member).quiet quiet

variable {handle moved : ElectionHandle} {sent : Option ElectionCall} {index : Nat}

theorem closed_set (found : world.handles[index]? = some handle) (step : Moved handle moved sent)
    (handles : reached.handles = world.handles.set index moved) {election candidateId : String}
    (closed : world.Closed election candidateId) :
    reached.Closed election candidateId := by
  obtain ⟨other, member, sameElection, sameCandidate, stopped⟩ := closed
  obtain ⟨place, located⟩ := List.mem_iff_getElem?.mp member
  unfold Closed
  rw [handles]
  by_cases here : index = place
  · subst here
    rw [located] at found
    cases found
    have inside := (List.getElem?_eq_some_iff.mp located).1
    refine ⟨moved, List.mem_set inside moved, step.election.trans sameElection,
      step.candidate.trans sameCandidate, step.closes stopped⟩
  · refine ⟨other, ?_, sameElection, sameCandidate, stopped⟩
    refine List.mem_iff_getElem?.mpr ⟨place, ?_⟩
    rw [List.getElem?_set_ne here, located]

/-- The call of a handle is new at the broker, and nothing else happens there. -/
theorem quiet_put (sound : world.Sound) (found : world.handles[index]? = some handle)
    (step : Moved handle moved sent) (putBack : world.put index (moved, sent) = some reached) :
    Quiet world reached ∧ reached.handles = world.handles.set index moved := by
  have inside := (List.getElem?_eq_some_iff.mp found).1
  cases sent with
  | none =>
    cases putBack
    refine ⟨?_, rfl⟩
    exact
      { later := Nat.le_refl _
        shared := rfl
        history := rfl
        finished := fun _ member => member
        accounted := sound.accounted
        running := fun _ _ running => .inl running
        closed := fun _ _ closed => closed_set found step rfl closed }
  | some =>
    rw [ElectionWorld.put] at putBack
    obtain ⟨broker, spawned, rfl⟩ := Option.map_eq_some_iff.mp putBack
    have accounted := Pool.accounted_step ElectionCall.grants_program sound.accounted spawned
    cases spawned
    refine ⟨?_, rfl⟩
    exact
      { later := Nat.le_refl _
        shared := Pool.settle_shared _ _ _ _
        history := Pool.settle_history _ _ _ _
        finished := fun _ member =>
          Pool.mem_settle_finished _ _ _ _ member
        accounted := accounted
        running := by
          intro thread running new
          rcases Pool.settle_running new with ⟨_, rfl⟩ | ⟨_, before⟩
          · refine .inr fun election leaderId term leaseId called => ?_
            obtain ⟨rfl, rfl, stopped⟩ :=
              step.resigns election leaderId term leaseId (congrArg some called)
            exact ⟨moved, List.mem_set inside moved, step.election, step.candidate, stopped⟩
          · exact .inl before
        closed := fun _ _ closed => closed_set found step rfl closed }

theorem Sound.put (sound : world.Sound) (found : world.handles[index]? = some handle)
    (step : Moved handle moved sent) (covers : world.Covers moved)
    (putBack : world.put index (moved, sent) = some reached) : reached.Sound := by
  obtain ⟨quiet, handles⟩ := quiet_put sound found step putBack
  refine sound.quiet quiet ?_ fun other member => ?_
  · have sameNames :
        (reached.handles.map fun handle => (handle.election, handle.candidateId)) =
          world.handles.map fun handle => (handle.election, handle.candidateId) := by
      obtain ⟨inside, rfl⟩ := List.getElem?_eq_some_iff.mp found
      rw [handles, List.map_set, step.election, step.candidate]
      exact List.map_set ▸ congrArg _ (List.set_getElem_self inside)
    rw [sameNames]
    exact sound.distinct
  · rw [handles] at member
    rcases List.mem_or_eq_of_mem_set member with kept | rfl
    · exact sound.covered other kept
    · exact covers

end Quiet

/-! ## The actions of the broker -/

section Actions

variable {world reached : ElectionWorld} {election candidateId : String} {nanos : Int}

/-- One action of a call at the broker, under the condition on careful steps. -/
structure Acted (world reached : ElectionWorld) (entry : ElectionEntry) : Prop where
  handles : reached.handles = world.handles
  clock : reached.clock = world.clock
  before : entry.before = world.broker.shared
  after : reached.broker.shared = entry.after
  history : reached.broker.history = entry :: world.broker.history
  performed :
    ∃ uuid fails, electionPerform ⟨world.nowMillis, uuid, fails⟩ entry.before entry.request =
        some (entry.answer, entry.after)
  asks :
    entry.call.Asks (ownPath entry.thread world.broker.history) entry.request
  running :
    ∃ running, world.broker.threads entry.thread = some running ∧ running.call = entry.call
  careful : world.CarefulAction entry.request

variable {entry : ElectionEntry}

theorem Sound.reached_of_takeOver (sound : world.Sound) (acted : Acted world reached entry)
    {name candidate leaseId : String} {expires now : Int}
    (asked : entry.request = .takeOver name candidate leaseId expires now) :
    millisToNanos now ≤ world.clock := by
  have asks := acted.asks
  rw [asked] at asks
  obtain ⟨reading, listed, _, read⟩ := exists_performed_of_mem_ownPath asks
  have past := sound.clocks reading listed now read
  unfold nowMillis at past
  unfold millisToNanos
  omega

theorem Sound.closed_of_expire (sound : world.Sound) (acted : Acted world reached entry)
    {name leaderId leaseId : String} {term : Nat} {now : Int}
    (asked : entry.request = .expire name leaderId term leaseId now) :
    world.Closed name leaderId := by
  have asks := acted.asks
  rw [asked] at asks
  obtain ⟨running, found, sameCall⟩ := acted.running
  exact sound.resigns entry.thread running found name leaderId term leaseId (sameCall.trans asks)

theorem rowMove_of_acted (acted : Acted world reached entry) {row : LeaderLease}
    (found : world.row? election = some row) :
    RowMove election row reached.broker.shared.elections entry.request := by
  obtain ⟨uuid, fails, performed⟩ := acted.performed
  rw [acted.after]
  refine rowMove_of_effect (effect_of_electionPerform performed) ?_
  rw [acted.before]
  exact found

/-- A row that lasts is kept through every action, unless its time has come or its
handle has resigned. -/
theorem Sound.holds_acted (sound : world.Sound) (acted : Acted world reached entry)
    (holds : world.Holds election candidateId nanos) :
    nanos ≤ world.clock ∨ reached.Holds election candidateId nanos ∨
      world.Closed election candidateId ∧ reached.Names election candidateId := by
  obtain ⟨row, found, own, lasts⟩ := holds
  have careful := acted.careful
  generalize asked : entry.request = request at careful
  have move := rowMove_of_acted acted found
  rw [asked] at move
  cases move with
  | kept _ kept => exact .inr (.inl ⟨row, kept, own, lasts⟩)
  | taken =>
    have past := sound.reached_of_takeOver acted asked
    unfold millisToNanos at lasts past
    exact .inl (by omega)
  | extended _ _ _ expires _ held moved =>
    have onward := careful row found held
    refine .inr (.inl ⟨_, moved, own, ?_⟩)
    have later : ((endLeaseAt expires).set row).expireAtMs = expires := rfl
    rw [later]
    unfold millisToNanos at lasts ⊢
    omega
  | resigned _ _ _ _ held moved =>
    have closed := sound.closed_of_expire acted asked
    rw [LeaderLease.holds, decide_eq_true_eq] at held
    rw [← held.2.1, own] at closed
    exact .inr (.inr ⟨closed, _, moved, own⟩)

variable {handle : ElectionHandle}

theorem names_acted (acted : Acted world reached entry)
    (member : handle ∈ world.handles) (lingers : handle.Lingers world.clock)
    (names : world.Names handle.election candidateId) :
    reached.Names handle.election candidateId := by
  obtain ⟨row, found, own⟩ := names
  have careful := acted.careful
  generalize asked : entry.request = request at careful
  have move := rowMove_of_acted acted found
  rw [asked] at move
  cases move with
  | kept _ kept => exact ⟨row, kept, own⟩
  | taken _ _ _ _ ended =>
    exact absurd lingers (careful row found ended handle member rfl)
  | extended _ _ _ _ _ _ moved | resigned _ _ _ _ _ moved => exact ⟨_, moved, own⟩

/-- A handle goes on relying on its lease through every action, as long as it
believes in it. -/
theorem Sound.mayRely_acted (sound : world.Sound) (acted : Acted world reached entry)
    (member : handle ∈ world.handles)
    (relies : world.MayRely handle nanos)
    (lingers : world.clock < nanos → handle.running = false → handle.Lingers world.clock) :
    reached.MayRely handle nanos := by
  by_cases past : nanos ≤ world.clock
  · refine .inl ?_
    rw [acted.clock]
    exact past
  · rcases relies with past' | holds | ⟨stopped, names⟩
    · exact absurd past' past
    · rcases sound.holds_acted acted holds with past' | kept | ⟨closed, names⟩
      · exact absurd past' past
      · exact .inr (.inl kept)
      · exact .inr (.inr ⟨sound.running_false member closed, names⟩)
    · have believes := lingers (Int.not_le.mp past) stopped
      exact .inr (.inr ⟨stopped, names_acted acted member believes names⟩)

theorem Sound.covers_acted (sound : world.Sound) (acted : Acted world reached entry)
    (finished : ∀ finished ∈ world.broker.finished, finished ∈ reached.broker.finished)
    (member : handle ∈ world.handles) :
    reached.Covers handle := by
  have covers := sound.covered handle member
  refine ⟨covers.closing, ?_, ?_, ?_⟩
  · intro thread leader held
    obtain ⟨reply, listed, own⟩ := covers.granted thread leader held
    exact ⟨reply, finished reply listed, own⟩
  · intro thread leader accepted
    refine sound.mayRely_acted acted member (covers.winning thread leader accepted) ?_
    intro _ stopped
    refine ⟨stopped, .inr ?_⟩
    rw [accepted]
    rfl
  · intro leading
    refine sound.mayRely_acted acted member (covers.leading leading) ?_
    intro lasts stopped
    refine ⟨stopped, .inl ?_⟩
    rw [ElectionHandle.isLeader, leading, Bool.true_and, decide_eq_true_eq]
    exact lasts

theorem Sound.acted (sound : world.Sound) (acted : Acted world reached entry)
    (accounted : Pool.Accounted ElectionCall.Asks ElectionCall.Grants reached.broker)
    (finished : ∀ finished ∈ world.broker.finished, finished ∈ reached.broker.finished)
    (calls :
      ∀ thread running, reached.broker.threads thread = some running →
        ∃ before, world.broker.threads thread = some before ∧ before.call = running.call) :
    reached.Sound := by
  obtain ⟨uuid, fails, performed⟩ := acted.performed
  have sameNow : reached.nowMillis = world.nowMillis := by
    unfold nowMillis
    rw [acted.clock]
  have sameClosed (name candidate : String) (closed : world.Closed name candidate) :
      reached.Closed name candidate := by
    unfold Closed
    rw [acted.handles]
    exact closed
  refine
    { accounted := accounted
      clocks := ?_
      owners := ?_
      shown := ?_
      resigns := ?_
      distinct := acted.handles ▸ sound.distinct
      covered := ?_ }
  · rw [acted.history, sameNow]
    intro older member now read
    rcases List.mem_cons.mp member with rfl | earlier
    · -- the newest reading is the present clock
      obtain ⟨thread, call, request, answer, before, after⟩ := older
      cases read
      cases performed
      exact Int.le_refl _
    · exact sound.clocks older earlier now read
  · rw [acted.history]
    intro older member row shown
    rcases List.mem_cons.mp member with rfl | earlier
    · exact owner_of_shownLease (effect_of_electionPerform performed) shown
    · exact sound.owners older earlier row shown
  · rw [acted.history, acted.clock]
    intro older member row shown
    rcases List.mem_cons.mp member with rfl | earlier
    · refine .inr (.inl ⟨row, ?_, rfl, Int.le_refl _⟩)
      unfold row?
      rw [acted.after, ElectionTable.row?_eq_some_iff]
      exact ⟨(effect_of_electionPerform performed).mem_of_shown shown, rfl⟩
    · rcases sound.shown older earlier row shown with past | holds | closed
      · exact .inl past
      · rcases sound.holds_acted acted holds with past | kept | ⟨closed, _⟩
        · exact .inl past
        · exact .inr (.inl kept)
        · exact .inr (.inr (sameClosed _ _ closed))
      · exact .inr (.inr (sameClosed _ _ closed))
  · intro thread running found name leaderId term leaseId called
    obtain ⟨before, foundBefore, sameCall⟩ := calls thread running found
    exact sameClosed _ _
      (sound.resigns thread before foundBefore name leaderId term leaseId (sameCall.trans called))
  · rw [acted.handles]
    exact fun handle member => sound.covers_acted acted finished member

end Actions

/-! ## Runs -/

section Runs

variable {world reached : ElectionWorld}

theorem sound_start (elections : ElectionState) (clock : Nat) : (start elections clock).Sound where
  accounted := Pool.accounted_start elections
  clocks := by intro entry member; cases member
  owners := by intro entry member; cases member
  shown := by intro entry member; cases member
  resigns := by intro thread running found; cases found
  distinct := List.nodup_nil
  covered := by intro handle member; cases member

theorem Sound.broker (sound : world.Sound) {thread : Nat} {uuid : String} {fails : Bool}
    (careful : world.Careful (.broker thread uuid fails))
    (stepped : world.step (.broker thread uuid fails) = some reached) :
    reached.Sound := by
  rw [step] at stepped
  obtain ⟨broker, advanced, rfl⟩ := Option.map_eq_some_iff.mp stepped
  have accounted := Pool.accounted_step ElectionCall.grants_program sound.accounted advanced
  rcases Pool.step_cases advanced with
    ⟨call, shape, _⟩ | ⟨choice, running, entry, next, shape, acts, rfl⟩ | ⟨shape, _⟩
  · cases shape
  · cases shape
    have acted : Acted world { world with broker := world.broker.acted running entry next } entry :=
      { handles := rfl
        clock := rfl
        before := acts.previous
        after := Pool.settle_shared _ _ _ _
        history := Pool.settle_history _ _ _ _
        performed := ⟨uuid, fails, acts.performed⟩
        asks := acts.asks sound.accounted
        running := ⟨running, acts.found, acts.sameCall.symm⟩
        careful := careful entry.request acts.next? }
    exact sound.acted acted accounted (fun _ member => Pool.mem_settle_finished _ _ _ _ member)
      fun _ _ there => acts.runs there
  · cases shape

theorem Sound.step (sound : world.Sound) {event : ElectionWorldEvent}
    (careful : world.Careful event) (stepped : world.step event = some reached) :
    reached.Sound := by
  cases event with
  | pass =>
    cases stepped
    refine sound.quiet ?_ sound.distinct sound.covered
    exact
      { later := Nat.le_add_right _ _
        shared := rfl
        history := rfl
        finished := fun _ member => member
        accounted := sound.accounted
        running := fun _ _ running => .inl running
        closed := fun _ _ closed => closed }
  | startElection =>
    rw [ElectionWorld.step] at stepped
    split at stepped
    · next may =>
      cases stepped
      refine sound.quiet ?_ ?_ ?_
      · exact
          { later := Nat.le_refl _
            shared := rfl
            history := rfl
            finished := fun _ member => member
            accounted := sound.accounted
            running := fun _ _ running => .inl running
            closed := fun _ _ ⟨handle, member, closed⟩ =>
              ⟨handle, List.mem_append_left _ member, closed⟩ }
      · rw [List.map_append, List.nodup_append]
        refine ⟨sound.distinct, List.nodup_singleton _, ?_⟩
        intro name named new isNew same
        obtain ⟨handle, member, rfl⟩ := List.mem_map.mp named
        rw [List.map_singleton, List.mem_singleton] at isNew
        rw [isNew, Prod.mk.injEq] at same
        exact may.2.2.2.2 handle member same
      · intro handle member
        rcases List.mem_append.mp member with old | new
        · exact sound.covered handle old
        · rw [List.mem_singleton] at new
          subst new
          exact ⟨fun called => absurd rfl called, nofun, nofun, nofun⟩
    · cases stepped
  | broker => exact sound.broker careful stepped
  | restart =>
    rw [ElectionWorld.step] at stepped
    obtain ⟨broker, crashed, rfl⟩ := Option.map_eq_some_iff.mp stepped
    have accounted := Pool.accounted_step ElectionCall.grants_program sound.accounted crashed
    cases crashed
    refine sound.quiet ?_ sound.distinct sound.covered
    exact
      { later := Nat.le_refl _
        shared := rfl
        history := rfl
        finished := fun _ member => member
        accounted := accounted
        running := nofun
        closed := fun _ _ closed => closed }
  | work =>
    rw [ElectionWorld.step] at stepped
    split at stepped
    · cases stepped
    · next handle found =>
      obtain ⟨⟨moved, sent⟩, worked, putBack⟩ := Option.bind_eq_some_iff.mp stepped
      have member := List.mem_of_getElem? found
      exact sound.put found (moved_of_work worked)
        (sound.work member (careful handle found) worked) putBack
  | close =>
    rw [ElectionWorld.step] at stepped
    split at stepped
    · cases stepped
    · next handle found =>
      obtain ⟨⟨moved, sent⟩, closed, putBack⟩ := Option.bind_eq_some_iff.mp stepped
      have covers := sound.covered handle (List.mem_of_getElem? found)
      obtain ⟨covered, step⟩ := covers.close closed
      exact sound.put found step covered putBack

theorem Sound.names_of_isLeader (sound : world.Sound) {handle : ElectionHandle}
    (member : handle ∈ world.handles) (leads : handle.isLeader world.clock = true) :
    world.Names handle.election handle.candidateId := by
  rw [ElectionHandle.isLeader, Bool.and_eq_true, decide_eq_true_eq] at leads
  rcases (sound.covered handle member).leading leads.1 with past | ⟨row, found, own, _⟩ | ⟨_, names⟩
  · exact absurd leads.2 (Int.not_lt.mpr past)
  · exact ⟨row, found, own⟩
  · exact names

end Runs

def OneLeads (world : ElectionWorld) : Prop :=
  ∀ (left right : Nat) (first second : ElectionHandle),
    world.handles[left]? = some first → world.handles[right]? = some second →
      first.election = second.election →
        first.isLeader world.clock = true → second.isLeader world.clock = true → left = right

/-- A handle that leads is the leader the broker knows: its lease was not granted
to another candidate. -/
def LeadersKnown (world : ElectionWorld) : Prop :=
  ∀ handle ∈ world.handles, handle.isLeader world.clock = true →
    world.Names handle.election handle.candidateId

end ElectionWorld

/-- In every run whose steps are all careful, at most one handle of an election
leads, and it is the leader at the broker. -/
theorem election_oneLeads (elections : ElectionState) (clock : Nat)
    (events : List ElectionWorldEvent) (world : ElectionWorld)
    (replayed : ElectionWorld.replay elections clock events = some world)
    (careful :
      Along ElectionWorld.step ElectionWorld.Careful (ElectionWorld.start elections clock) events) :
    world.OneLeads ∧ world.LeadersKnown := by
  have sound : world.Sound :=
    run_invariant_along
      (fun sound careful stepped => sound.step careful stepped)
      (ElectionWorld.sound_start elections clock) careful replayed
  refine ⟨?_, fun handle member leads => sound.names_of_isLeader member leads⟩
  intro left right first second foundFirst foundSecond sameElection firstLeads secondLeads
  obtain ⟨row, found, own⟩ := sound.names_of_isLeader (List.mem_of_getElem? foundFirst) firstLeads
  obtain ⟨other, foundOther, ownOther⟩ :=
    sound.names_of_isLeader (List.mem_of_getElem? foundSecond) secondLeads
  rw [← sameElection, found, Option.some.injEq] at foundOther
  subst foundOther
  have sameNames : (world.handles.map fun handle => (handle.election, handle.candidateId))[left]? =
      (world.handles.map fun handle => (handle.election, handle.candidateId))[right]? := by
    rw [List.getElem?_map, List.getElem?_map, foundFirst, foundSecond, Option.map_some,
      Option.map_some, sameElection, ← own, ← ownOther]
  refine (List.getElem?_inj ?_ sound.distinct).mp sameNames
  rw [List.length_map]
  exact (List.getElem?_eq_some_iff.mp foundFirst).1

/-- A handle sends a campaign, and the broker wins it the election. -/
def winsElection (handle thread : Nat) (uuid : String) : List ElectionWorldEvent :=
  [.work handle false, .broker thread "" false, .broker thread uuid false,
    .broker thread "" false, .broker thread "" false, .broker thread "" false]

def takesReply (handle : Nat) : List ElectionWorldEvent :=
  [.work handle false, .work handle false, .work handle false]

/-- The first handle leads for two seconds and then loses contact; the second one
takes over when the lease is over. -/
def promptReplies : List ElectionWorldEvent :=
  [.startElection "e" "a" 3, .startElection "e" "b" 3] ++ winsElection 0 0 "u1" ++
    [.pass 500000000] ++ takesReply 0 ++ [.work 0 false, .pass 2500000000] ++
    winsElection 1 2 "u2" ++ takesReply 1

theorem election_oneLeads_promptReplies : ∃ world,
    ElectionWorld.replay ⟨Table.empty, []⟩ 0 promptReplies = some world ∧
      (world.handles.map fun handle => (handle.leading, handle.isLeader world.clock)) =
        [(true, false), (true, true)] ∧
      world.OneLeads ∧ world.LeadersKnown := by
  have checked : checkAlong ElectionWorld.step
      (fun world event => decide (world.Careful event))
      (ElectionWorld.start ⟨Table.empty, []⟩ 0) promptReplies = true := by
    decide +kernel
  have careful := along_of_check (fun world event decided => of_decide_eq_true decided) checked
  refine (exists_some_of_check ?_).imp fun world reached =>
    ⟨reached.1, reached.2, election_oneLeads _ _ _ _ reached.1 careful⟩
  decide +kernel

/-- The reply of the first handle travels two and a half seconds, and the second
handle wins the election when the lease of three seconds is over. -/
def lateReply : List ElectionWorldEvent :=
  [.startElection "e" "a" 3, .startElection "e" "b" 3] ++ winsElection 0 0 "u1" ++
    [.pass 2500000000] ++ takesReply 0 ++ [.pass 500000000] ++
    winsElection 1 1 "u2" ++ takesReply 1

/-- A reply that travels longer than the safety margin makes two handles lead. -/
theorem election_twoLead : ∃ world,
    ElectionWorld.replay ⟨Table.empty, []⟩ 0 lateReply = some world ∧
      ¬ world.OneLeads ∧ ¬ world.LeadersKnown := by
  obtain ⟨world, replayed, leader, one, two⟩ : ∃ world,
      ElectionWorld.replay ⟨Table.empty, []⟩ 0 lateReply = some world ∧
        (∀ row ∈ world.row? "e", row.leaderId = "b") ∧
        (∃ first ∈ world.handles[0]?, first.election = "e" ∧ first.candidateId = "a" ∧
          first.isLeader world.clock = true) ∧
        ∃ second ∈ world.handles[1]?, second.election = "e" ∧ second.isLeader world.clock = true :=
    exists_some_of_check (by decide +kernel)
  obtain ⟨first, foundFirst, firstElection, firstCandidate, firstLeads⟩ := one
  obtain ⟨second, foundSecond, secondElection, secondLeads⟩ := two
  refine ⟨world, replayed, fun one => ?_, fun known => ?_⟩
  · have same :=
      one 0 1 first second foundFirst foundSecond
        (firstElection.trans secondElection.symm) firstLeads secondLeads
    cases same
  · obtain ⟨row, found, own⟩ :=
      known first (List.mem_of_getElem? foundFirst) firstLeads
    have other := leader row (firstElection ▸ found)
    rw [own, firstCandidate] at other
    exact absurd other (by decide)

end CanglingBroker
