import CanglingBroker.Election.Store

/-!
# Automatic election handles

A handle of the Java or Python client campaigns for one election and renews its lease from
a thread of its own; `close` runs on the thread of its caller.  The handles and the broker
share one clock.  A call may be lost on either way, and a handle takes no reply later than
the deadline of the call.
-/

namespace CanglingBroker

open Foundation

/-- `RPC_DEADLINE_SECS`, in nanoseconds. -/
def rpcDeadlineNanos : Nat :=
  15000000000

/-- `TimeUnit.MILLISECONDS.toNanos`. -/
def millisToNanos (millis : Int) : Int :=
  millis * 1000000

/-- Where the thread of a handle is.  A call is known by its thread number at the
broker. -/
inductive ElectionWorker where
  /-- At the head of the loop of `run`, or asleep before it. -/
  | looping
  | renewing (thread sentAt term : Nat) (leaseId : String)
  | campaigning (thread sentAt : Nat)
  /-- A reply is there, and `running` is not looked at yet. -/
  | renewed (thread : Nat) (leader : Option ElectionLeader)
  | campaigned (thread : Nat) (won : Bool) (leader : ElectionLeader)
  /-- `running` was still set. -/
  | accepted (thread : Nat) (won : Bool) (leader : Option ElectionLeader)
  | resigning (thread : Nat) (leader : ElectionLeader)
  | stopped
  deriving DecidableEq, Repr

/-- Where a call of `close` is. -/
inductive ElectionCloser where
  | notCalled
  | closing
  | resigning (thread : Nat) (leader : ElectionLeader)
  | closed
  deriving DecidableEq, Repr

structure ElectionHandle where
  election : String
  candidateId : String
  ttlSeconds : Nat
  running : Bool := true
  leading : Bool := false
  validUntilNanos : Int := 0
  observedLeader : Option ElectionLeader := none
  worker : ElectionWorker := .looping
  closer : ElectionCloser := .notCalled
  deriving DecidableEq, Repr

namespace ElectionHandle

def isLeader (handle : ElectionHandle) (nanoTime : Nat) : Bool :=
  handle.leading && decide ((nanoTime : Int) < handle.validUntilNanos)

/-- The safety margin of `becomeLeader`. -/
def safetyMillis (handle : ElectionHandle) : Nat :=
  min 1000 (handle.ttlSeconds * 1000 / 3)

def becomeFollower (leader : Option ElectionLeader) (handle : ElectionHandle) :
    ElectionHandle :=
  { handle with
    observedLeader := leader
    leading := false
    validUntilNanos := 0 }

def becomeLeader (leader : ElectionLeader) (nanoTime : Nat)
    (handle : ElectionHandle) : ElectionHandle :=
  let validForMillis := leader.remainingTtlMs - handle.safetyMillis
  if validForMillis ≤ 0 then
    handle.becomeFollower (some leader)
  else
    { handle with
      observedLeader := some leader
      validUntilNanos := nanoTime + millisToNanos validForMillis
      leading := true }

/-- `campaignElectionOnce` of this handle. -/
def campaignCall (handle : ElectionHandle) : ElectionCall :=
  .campaign handle.election handle.candidateId handle.ttlSeconds

/-- `renewElectionOnce` of this handle. -/
def renewCall (handle : ElectionHandle) (term : Nat) (leaseId : String) :
    ElectionCall :=
  .renew handle.election handle.candidateId term leaseId handle.ttlSeconds

/-- `resignElectionOnce` of this handle. -/
def resignCall (handle : ElectionHandle) (leader : ElectionLeader) : ElectionCall :=
  .resign handle.election handle.candidateId leader.lease.term leader.lease.leaseId

/-- The end of `run`. -/
def stop (handle : ElectionHandle) : ElectionHandle :=
  { handle.becomeFollower handle.observedLeader with worker := .stopped }

/-- The `catch` of `run`. -/
def callFailed (handle : ElectionHandle) (nanoTime : Nat) : ElectionHandle :=
  if !handle.running then
    handle.stop
  else if !handle.isLeader nanoTime then
    { handle.becomeFollower handle.observedLeader with worker := .looping }
  else
    { handle with worker := .looping }

/-- The head of the loop of `run`: stop, renew or campaign.  The call sent, if
any, gets the given thread number. -/
def poll (handle : ElectionHandle) (nanoTime thread : Nat) :
    ElectionHandle × Option ElectionCall :=
  if !handle.running then
    (handle.stop, none)
  else
    match handle.isLeader nanoTime, handle.observedLeader with
    | true, some leader =>
      ({ handle with
          worker := .renewing thread nanoTime leader.lease.term leader.lease.leaseId },
        some (handle.renewCall leader.lease.term leader.lease.leaseId))
    | _, _ =>
      ({ handle with worker := .campaigning thread nanoTime }, some handle.campaignCall)

/-- `becomeLeader` or `becomeFollower`, by the reply that was accepted. -/
def act (handle : ElectionHandle) (nanoTime : Nat) (won : Bool)
    (leader : Option ElectionLeader) : ElectionHandle :=
  match won, leader with
  | true, some leader => { handle.becomeLeader leader nanoTime with worker := .looping }
  | _, leader => { handle.becomeFollower leader with worker := .looping }

/-- One step of the thread of a handle.  `reply?` looks up the reply to a call;
`lost` says that the call the thread waits for fails. -/
def work (handle : ElectionHandle) (nanoTime thread : Nat)
    (reply? : Nat → ElectionCall → Option ElectionOutcome) (lost : Bool) :
    Option (ElectionHandle × Option ElectionCall) :=
  match handle.worker with
  | .looping => some (handle.poll nanoTime thread)
  | .renewing call sentAt term leaseId =>
    if lost then
      some (handle.callFailed nanoTime, none)
    else if nanoTime < sentAt + rpcDeadlineNanos then
      match reply? call (handle.renewCall term leaseId) with
      | none => none
      | some (.renewed leader) => some ({ handle with worker := .renewed call leader }, none)
      | some _ => some (handle.callFailed nanoTime, none)
    else
      none
  | .campaigning call sentAt =>
    if lost then
      some (handle.callFailed nanoTime, none)
    else if nanoTime < sentAt + rpcDeadlineNanos then
      match reply? call handle.campaignCall with
      | none => none
      | some (.campaigned won leader) =>
        some ({ handle with worker := .campaigned call won leader }, none)
      | some _ => some (handle.callFailed nanoTime, none)
    else
      none
  | .renewed call leader =>
    if !handle.running then
      some (handle.stop, none)
    else
      some ({ handle with worker := .accepted call leader.isSome leader }, none)
  | .campaigned call won leader =>
    if !handle.running then
      if won then
        some ({ handle with worker := .resigning thread leader }, some (handle.resignCall leader))
      else
        some (handle.stop, none)
    else
      some ({ handle with worker := .accepted call won (some leader) }, none)
  | .accepted _ won leader => some (handle.act nanoTime won leader, none)
  | .resigning call leader =>
    if lost || (reply? call (handle.resignCall leader)).isSome then
      some (handle.stop, none)
    else
      none
  | .stopped => none

def close (handle : ElectionHandle) (nanoTime thread : Nat)
    (reply? : Nat → ElectionCall → Option ElectionOutcome) (lost : Bool) :
    Option (ElectionHandle × Option ElectionCall) :=
  match handle.closer with
  | .notCalled => some ({ handle with running := false, closer := .closing }, none)
  | .closing =>
    match handle.isLeader nanoTime, handle.observedLeader with
    | true, some leader =>
      some ({ handle with closer := .resigning thread leader }, some (handle.resignCall leader))
    | _, leader => some ({ handle.becomeFollower leader with closer := .closed }, none)
  | .resigning call leader =>
    if lost || (reply? call (handle.resignCall leader)).isSome then
      some ({ handle.becomeFollower (some leader) with closer := .closed }, none)
    else
      none
  | .closed => none

end ElectionHandle

/-- One broker, the handles started so far, and the clock. -/
structure ElectionWorld where
  clock : Nat
  broker : ElectionService
  handles : List ElectionHandle

/-- What can happen next. -/
inductive ElectionWorldEvent where
  | pass (nanos : Nat)
  | startElection (election candidateId : String) (ttlSeconds : Nat)
  /-- A call performs its next action at the broker. -/
  | broker (thread : Nat) (uuid : String) (fails : Bool)
  | restart
  | work (handle : Nat) (lost : Bool)
  | close (handle : Nat) (lost : Bool)
  deriving DecidableEq, Repr

namespace ElectionWorld

/-- `now_millis()` at the broker. -/
def nowMillis (world : ElectionWorld) : Int :=
  (world.clock / 1000000 : Nat)

def reply? (world : ElectionWorld) (thread : Nat) (call : ElectionCall) :
    Option ElectionOutcome :=
  (world.broker.finished.find? fun finished =>
    decide (finished.thread = thread ∧ finished.call = call)).map Finished.result

/-- Put a handle back after a step of it, and send the call it makes. -/
def put (world : ElectionWorld) (index : Nat) :
    ElectionHandle × Option ElectionCall → Option ElectionWorld
  | (handle, none) => some { world with handles := world.handles.set index handle }
  | (handle, some call) =>
    (Pool.step electionComponent world.broker (.spawn call)).map
      fun broker => ⟨world.clock, broker, world.handles.set index handle⟩

/-- What `startElection` accepts, and that no handle of the election has the
candidate's name yet. -/
def MayStart (world : ElectionWorld) (election candidateId : String) (ttlSeconds : Nat) : Prop :=
  election ≠ "" ∧ candidateId ≠ "" ∧ 3 ≤ ttlSeconds ∧ ttlSeconds ≤ 3600 ∧ ∀ handle ∈ world.handles,
      ¬ (handle.election = election ∧ handle.candidateId = candidateId)

instance (world : ElectionWorld) (election candidateId : String)
    (ttlSeconds : Nat) : Decidable (world.MayStart election candidateId ttlSeconds) :=
  inferInstanceAs (Decidable (_ ∧ _ ∧ _ ∧ _ ∧ _))

/-- One step of the broker, of a handle or of the clock. -/
def step (world : ElectionWorld) : ElectionWorldEvent → Option ElectionWorld
  | .pass nanos => some { world with clock := world.clock + nanos }
  | .startElection election candidateId ttlSeconds =>
    if world.MayStart election candidateId ttlSeconds then
      some { world with
        handles := world.handles ++ [{ election, candidateId, ttlSeconds }] }
    else
      none
  | .broker thread uuid fails =>
    (Pool.step electionComponent world.broker
      (.advance thread ⟨world.nowMillis, uuid, fails⟩)).map fun broker => { world with broker }
  | .restart =>
    (Pool.step electionComponent world.broker .crash).map fun broker => { world with broker }
  | .work index lost =>
    match world.handles[index]? with
    | none => none
    | some handle =>
      (handle.work world.clock world.broker.fresh world.reply? lost).bind (world.put index)
  | .close index lost =>
    match world.handles[index]? with
    | none => none
    | some handle =>
      (handle.close world.clock world.broker.fresh world.reply? lost).bind (world.put index)

/-- A broker with any table, at any time, before the first handle. -/
def start (elections : ElectionState) (clock : Nat) : ElectionWorld where
  clock := clock
  broker := Pool.start elections
  handles := []

def replay (elections : ElectionState) (clock : Nat)
    (events : List ElectionWorldEvent) : Option ElectionWorld :=
  run step (start elections clock) events

end ElectionWorld

end CanglingBroker
