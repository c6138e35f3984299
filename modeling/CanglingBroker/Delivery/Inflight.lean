import CanglingBroker.Foundation.Table

/-!
# Acknowledgements in flight

`InflightAcks` maps the lease of a message that was handed to a stream to the channel on
which its delivery waits.  `AckMessages` applies its entries in one loop and returns at the
first malformed one, so a batch agrees with single acknowledgements exactly when nothing
that follows would have been applied (`BatchSafe`).
-/

namespace CanglingBroker

open Foundation

structure AckDecision where
  success : Bool
  error : String
  deriving DecidableEq, Repr

/-- `PendingAck`: the message, and the channel its decision goes to. -/
structure PendingAck where
  messageId : String
  tx : Nat
  deriving DecidableEq, Repr

/-- The receiving half of a `oneshot` channel. -/
inductive AckReceiver where
  | waiting
  | decided (decision : AckDecision)
  | dropped
  deriving DecidableEq, Repr

/-- `InflightAcks`, with the receivers of all channels it has made. -/
structure InflightAcks where
  pending : Dict String PendingAck
  receivers : List AckReceiver

namespace InflightAcks

/-- `InflightAcks::default`. -/
def empty : InflightAcks where
  pending := ∅
  receivers := []

/-- `InflightAcks::register`: the number of the channel that is made. -/
def register (messageId lease : String) (acks : InflightAcks) : Nat × InflightAcks :=
  (acks.receivers.length,
    { pending := acks.pending.insert lease ⟨messageId, acks.receivers.length⟩
      receivers := acks.receivers ++ [.waiting] })

/-- `oneshot::Sender::send`: it fails when the receiver is gone. -/
def send (tx : Nat) (decision : AckDecision) (acks : InflightAcks) : Bool × InflightAcks :=
  match acks.receivers[tx]? with
  | some .waiting => (true, { acks with receivers := acks.receivers.set tx (.decided decision) })
  | _ => (false, acks)

def complete (messageId lease : String) (success : Bool) (error : String)
    (acks : InflightAcks) : Bool × InflightAcks :=
  match acks.pending.lookup lease with
  | some pending =>
    if pending.messageId = messageId then
      { acks with pending := acks.pending.erase lease }.send pending.tx ⟨success, error⟩
    else
      (false, acks)
  | none => (false, acks)

def cancel (lease : String) (acks : InflightAcks) : InflightAcks :=
  { acks with pending := acks.pending.erase lease }

def dropReceiver (rx : Nat) (acks : InflightAcks) : InflightAcks :=
  { acks with receivers := acks.receivers.set rx .dropped }

end InflightAcks

/-! ## The two requests -/

structure AckMessageRequest where
  messageId : String
  lease : String
  success : Bool
  error : String
  deriving DecidableEq, Repr

namespace AckMessageRequest

def WellFormed (ack : AckMessageRequest) : Prop :=
  ack.messageId ≠ "" ∧ ack.lease ≠ ""

instance (ack : AckMessageRequest) : Decidable ack.WellFormed :=
  inferInstanceAs (Decidable (_ ∧ _))

end AckMessageRequest

namespace InflightAcks

/-- `QueueService::ack_message`: whether the decision was accepted, or the text of
the invalid-argument status. -/
def ackMessage (ack : AckMessageRequest) (acks : InflightAcks) :
    Except String Bool × InflightAcks :=
  if ack.messageId = "" ∨ ack.lease = "" then
    (.error "message_id and lease are required", acks)
  else
    let completed := acks.complete ack.messageId ack.lease ack.success ack.error
    (.ok completed.1, completed.2)

/-- `u32::saturating_add`. -/
def saturatingSucc (accepted : Nat) : Nat :=
  min (accepted + 1) (2 ^ 32 - 1)

/-- The loop of `ack_messages`. -/
def ackEach : List AckMessageRequest → Nat → InflightAcks → Except String Nat × InflightAcks
  | [], accepted, acks => (.ok accepted, acks)
  | ack :: rest, accepted, acks =>
    if ack.messageId = "" ∨ ack.lease = "" then
      (.error "message_id and lease are required", acks)
    else
      let completed := acks.complete ack.messageId ack.lease ack.success ack.error
      ackEach rest (if completed.1 then saturatingSucc accepted else accepted) completed.2

/-- `QueueService::ack_messages`: how many decisions were accepted. -/
def ackMessages (batch : List AckMessageRequest) (acks : InflightAcks) :
    Except String Nat × InflightAcks :=
  if batch.isEmpty then
    (.error "acknowledgements are required", acks)
  else
    acks.ackEach batch 0

/-- The table and the decisions after one single acknowledgement. -/
def applyAck (acks : InflightAcks) (ack : AckMessageRequest) : InflightAcks :=
  (acks.ackMessage ack).2

/-- The acknowledgement names a message that is waited for. -/
def Awaits (acks : InflightAcks) (ack : AckMessageRequest) : Prop :=
  ack.WellFormed ∧ ∃ pending ∈ acks.pending.lookup ack.lease, pending.messageId = ack.messageId

instance (acks : InflightAcks) (ack : AckMessageRequest) : Decidable (acks.Awaits ack) :=
  inferInstanceAs (Decidable (_ ∧ _))

/-! ## One acknowledgement -/

variable {acks : InflightAcks} {ack : AckMessageRequest}

theorem send_pending (tx : Nat) (decision : AckDecision) :
    (acks.send tx decision).2.pending = acks.pending := by
  unfold send
  split <;> rfl

theorem applyAck_of_not_awaits (unawaited : ¬ acks.Awaits ack) : acks.applyAck ack = acks := by
  unfold applyAck ackMessage
  split
  · rfl
  · next given =>
    obtain ⟨named, leased⟩ := not_or.mp given
    change (acks.complete ack.messageId ack.lease ack.success ack.error).2 = acks
    unfold complete
    split
    · next pending found =>
      rw [if_neg]
      intro same
      exact unawaited ⟨⟨named, leased⟩, pending, found, same⟩
    · rfl

theorem applyAck_pending_of_awaits (awaited : acks.Awaits ack) :
    (acks.applyAck ack).pending = acks.pending.erase ack.lease := by
  obtain ⟨⟨named, leased⟩, pending, found, same⟩ := awaited
  unfold applyAck ackMessage
  rw [if_neg (not_or.mpr ⟨named, leased⟩)]
  change (acks.complete ack.messageId ack.lease ack.success ack.error).2.pending = _
  unfold complete
  rw [Option.mem_def.mp found]
  dsimp only
  rw [if_pos same, send_pending]

theorem awaits_applyAck_iff {other : AckMessageRequest} (given : ack.WellFormed) :
    (acks.applyAck ack).Awaits other ↔
      acks.Awaits other ∧ ¬ (ack.lease = other.lease ∧ ack.messageId = other.messageId) := by
  by_cases awaited : acks.Awaits ack
  · unfold Awaits
    rw [applyAck_pending_of_awaits awaited]
    obtain ⟨_, pending, found, same⟩ := awaited
    by_cases sameLease : ack.lease = other.lease
    · rw [← sameLease, AList.lookup_erase]
      constructor
      · rintro ⟨_, _, absent, _⟩
        cases absent
      · rintro ⟨⟨_, otherPending, otherFound, otherSame⟩, different⟩
        obtain rfl := Option.mem_unique found otherFound
        exact absurd ⟨rfl, same.symm.trans otherSame⟩ different
    · rw [AList.lookup_erase_ne (Ne.symm sameLease)]
      simp [sameLease]
  · rw [applyAck_of_not_awaits awaited]
    refine ⟨fun otherAwaited => ⟨otherAwaited, ?_⟩, And.left⟩
    rintro ⟨sameLease, sameId⟩
    obtain ⟨_, pending, found, same⟩ := otherAwaited
    rw [← sameLease] at found
    rw [← sameId] at same
    exact awaited ⟨given, pending, found, same⟩

/-! ## A batch -/

theorem ackEach_state : ∀ (batch : List AckMessageRequest) (accepted : Nat) (acks : InflightAcks),
    (acks.ackEach batch accepted).2 =
      (batch.takeWhile fun ack => ack.WellFormed).foldl applyAck acks
  | [], _, _ => rfl
  | ack :: rest, accepted, acks => by
    rw [ackEach]
    by_cases given : ack.WellFormed
    · have applied :
          (acks.complete ack.messageId ack.lease ack.success ack.error).2 = acks.applyAck ack := by
        unfold applyAck ackMessage
        rw [if_neg (not_or.mpr given)]
      rw [if_neg (not_or.mpr given), List.takeWhile_cons, if_pos (decide_eq_true given),
        List.foldl_cons, ← applied]
      exact ackEach_state rest _ _
    · have malformed : ack.messageId = "" ∨ ack.lease = "" := by
        by_contra wellFormed
        exact given (not_or.mp wellFormed)
      rw [if_pos malformed, List.takeWhile_cons, if_neg (by simpa using given), List.foldl_nil]

theorem ackMessages_state (batch : List AckMessageRequest) (acks : InflightAcks) :
    (acks.ackMessages batch).2 =
      (batch.takeWhile fun ack => ack.WellFormed).foldl applyAck acks := by
  cases batch with
  | nil => rfl
  | cons ack rest => exact ackEach_state (ack :: rest) 0 acks

theorem awaits_foldl_iff {other : AckMessageRequest} :
    ∀ {entries : List AckMessageRequest} {acks : InflightAcks},
      (∀ ack ∈ entries, ack.WellFormed) → ((entries.foldl applyAck acks).Awaits other ↔
          acks.Awaits other ∧ ∀ ack ∈ entries,
              ¬ (ack.lease = other.lease ∧ ack.messageId = other.messageId))
  | [], acks, _ => by simp
  | ack :: rest, acks, given => by
    rw [List.foldl_cons,
      awaits_foldl_iff fun later member => given later (List.mem_cons_of_mem ack member),
      awaits_applyAck_iff (given ack (.head _)), List.forall_mem_cons, and_assoc]

theorem lookup_foldl_of_none {lease : String} :
    ∀ {entries : List AckMessageRequest} {acks : InflightAcks},
      acks.pending.lookup lease = none → (entries.foldl applyAck acks).pending.lookup lease = none
  | [], _, absent => absent
  | ack :: rest, acks, absent => by
    have stillAbsent : (acks.applyAck ack).pending.lookup lease = none := by
      by_cases awaited : acks.Awaits ack
      · rw [applyAck_pending_of_awaits awaited]
        by_cases same : lease = ack.lease
        · rw [same]
          exact AList.lookup_erase _ _
        · rw [AList.lookup_erase_ne same]
          exact absent
      · rw [applyAck_of_not_awaits awaited]
        exact absent
    rw [List.foldl_cons]
    exact lookup_foldl_of_none stillAbsent

/-- A list of acknowledgements changes nothing exactly when none of them is waited
for. -/
theorem foldl_eq_self_iff : ∀ {entries : List AckMessageRequest} {acks : InflightAcks},
    entries.foldl applyAck acks = acks ↔ ∀ ack ∈ entries, ¬ acks.Awaits ack
  | [], acks => by simp
  | ack :: rest, acks => by
    rw [List.foldl_cons, List.forall_mem_cons]
    by_cases awaited : acks.Awaits ack
    · refine iff_of_false (fun same => ?_) fun holds => holds.1 awaited
      have absent : (rest.foldl applyAck (acks.applyAck ack)).pending.lookup ack.lease = none := by
        refine lookup_foldl_of_none ?_
        rw [applyAck_pending_of_awaits awaited]
        exact AList.lookup_erase _ _
      obtain ⟨_, pending, found, _⟩ := awaited
      rw [same, Option.mem_def.mp found] at absent
      cases absent
    · rw [applyAck_of_not_awaits awaited, foldl_eq_self_iff]
      simp [awaited]

/-- Every entry behind a malformed one is malformed, or not waited for, or repeats
an entry before it. -/
def BatchSafe (acks : InflightAcks) (batch : List AckMessageRequest) : Prop :=
  ∀ ack ∈ batch.dropWhile fun ack => ack.WellFormed, acks.Awaits ack →
    ∃ earlier ∈ batch.takeWhile fun ack => ack.WellFormed,
      earlier.lease = ack.lease ∧ earlier.messageId = ack.messageId

end InflightAcks

/-- A batch of acknowledgements leaves the table and the decisions as the single
acknowledgements in order would, exactly when it is safe. -/
theorem ackMessages_eq_each_iff (acks : InflightAcks) (batch : List AckMessageRequest) :
    (acks.ackMessages batch).2 = batch.foldl InflightAcks.applyAck acks ↔ acks.BatchSafe batch := by
  have given : ∀ ack ∈ batch.takeWhile (fun ack => ack.WellFormed), ack.WellFormed := by
    intro ack member
    have holds := List.mem_takeWhile_imp member
    exact of_decide_eq_true holds
  have split : batch.foldl InflightAcks.applyAck acks =
      (batch.dropWhile fun ack => ack.WellFormed).foldl InflightAcks.applyAck
        ((batch.takeWhile fun ack => ack.WellFormed).foldl InflightAcks.applyAck acks) := by
    rw [← List.foldl_append, List.takeWhile_append_dropWhile]
  rw [InflightAcks.ackMessages_state, split, eq_comm, InflightAcks.foldl_eq_self_iff]
  unfold InflightAcks.BatchSafe
  refine forall₂_congr fun ack member => ?_
  rw [InflightAcks.awaits_foldl_iff given]
  constructor
  · intro unawaited awaited
    by_contra fresh
    refine unawaited ⟨awaited, fun earlier before same => fresh ⟨earlier, before, same⟩⟩
  · rintro safe ⟨awaited, fresh⟩
    obtain ⟨earlier, before, same⟩ := safe awaited
    exact fresh earlier before same

/-- One delivery waits for the acknowledgement of `m1`. -/
def InflightAcks.oneWaiting : InflightAcks :=
  (empty.register "m1" "lease-1").2

/-- A consumer acknowledges an ephemeral message, which has no lease, and then
`m1`. -/
def InflightAcks.ephemeralFirst : List AckMessageRequest :=
  [⟨"m0", "", true, ""⟩, ⟨"m1", "lease-1", true, ""⟩]

/-- The ephemeral message swallows the acknowledgement behind it, which would have
been accepted alone. -/
theorem ackMessages_swallowed : InflightAcks.oneWaiting.ackMessages InflightAcks.ephemeralFirst =
    (.error "message_id and lease are required", InflightAcks.oneWaiting) ∧
      InflightAcks.oneWaiting.receivers = [.waiting] ∧
      (InflightAcks.ephemeralFirst.foldl InflightAcks.applyAck
          InflightAcks.oneWaiting).receivers = [.decided ⟨true, ""⟩] ∧
      (InflightAcks.oneWaiting.ackMessages InflightAcks.ephemeralFirst).2 ≠
        InflightAcks.ephemeralFirst.foldl InflightAcks.applyAck InflightAcks.oneWaiting := by
  refine ⟨rfl, by decide, by decide, fun same => ?_⟩
  exact absurd (congrArg InflightAcks.receivers same) (by decide)

end CanglingBroker
