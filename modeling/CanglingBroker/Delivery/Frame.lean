import CanglingBroker.Delivery.Vocabulary

/-!
# What an action leaves alone

Each part of the shared state is touched by actions of a few kinds.  This is the one place
where the effects of all actions are looked at together; what other actions leave alone is
used from here.
-/

namespace CanglingBroker

namespace DeliveryKind

/-- Calls of `Database`, and their steps. -/
def movesBroker : List DeliveryKind :=
  [.store, .claim, .acknowledge, .giveBack, .call, .advance]

def movesInflight : List DeliveryKind :=
  [.register, .complete, .cancelAck, .dropReceiver, .awaitAck]

def movesSemaphores : List DeliveryKind :=
  [.newSemaphore, .acquire, .dropPermit]

def movesTasks : List DeliveryKind :=
  [.spawn, .begin, .finish]

def movesCommands : List DeliveryKind :=
  [.queueDelivered, .takeCommands]

def movesResponses : List DeliveryKind :=
  [.queueDelivered, .respond]

def movesNotifications : List DeliveryKind :=
  [.watch, .raise]

def movesWatchers : List DeliveryKind :=
  [.watch, .awaitChange]

end DeliveryKind

open DeliveryKind

/-- The parts of the state that an action of a kind leaves alone. -/
structure Untouched (kind : DeliveryKind) (state next : DeliveryState) : Prop where
  broker : movesBroker.contains kind = false → next.broker = state.broker
  inflight : movesInflight.contains kind = false → next.inflight = state.inflight
  leases : kind ≠ .newLease → next.leases = state.leases
  cancelled : kind ≠ .cancel → next.cancelled = state.cancelled
  semaphores : movesSemaphores.contains kind = false → next.semaphores = state.semaphores
  tasks : movesTasks.contains kind = false → next.tasks = state.tasks
  commands : movesCommands.contains kind = false → next.commands = state.commands
  responses : movesResponses.contains kind = false → next.responses = state.responses
  notifications :
    movesNotifications.contains kind = false → next.notifications = state.notifications
  watchers : movesWatchers.contains kind = false → next.watchers = state.watchers

theorem untouched_refl (kind : DeliveryKind) (state : DeliveryState) :
    Untouched kind state state := by
  constructor <;> exact fun _ => rfl

variable {kind : DeliveryKind} {state : DeliveryState}

theorem Untouched.of_broker (broker : Broker) (moves : movesBroker.contains kind = true) :
    Untouched kind state { state with broker := broker } := by
  constructor <;> first | exact fun _ => rfl | skip
  exact fun alone => Bool.noConfusion (moves.symm.trans alone)

theorem Untouched.of_inflight (inflight : InflightAcks) (clock : Nat)
    (moves : movesInflight.contains kind = true) :
    Untouched kind state { state with inflight := inflight, clock := clock } := by
  constructor <;> first | exact fun _ => rfl | skip
  exact fun alone => Bool.noConfusion (moves.symm.trans alone)

theorem Untouched.of_semaphores (semaphores : List Nat)
    (moves : movesSemaphores.contains kind = true) :
    Untouched kind state { state with semaphores := semaphores } := by
  constructor <;> first | exact fun _ => rfl | skip
  exact fun alone => Bool.noConfusion (moves.symm.trans alone)

theorem Untouched.of_tasks (tasks : List (DeliveryTask × TaskState))
    (moves : movesTasks.contains kind = true) :
    Untouched kind state { state with tasks := tasks } := by
  constructor <;> first | exact fun _ => rfl | skip
  exact fun alone => Bool.noConfusion (moves.symm.trans alone)

section Waits

variable {choice : DeliveryChoice} {state next : DeliveryState}

theorem untouched_awaitAck {rx token deadline : Nat} {answer : AckOutcome}
    (performed : state.awaitAck rx token deadline choice = some (answer, next)) :
    Untouched .awaitAck state next := by
  simp only [DeliveryState.awaitAck] at performed
  split at performed
  · split at performed <;> cases performed
    exact .of_inflight _ _ rfl
  · split at performed <;> cases performed
    exact untouched_refl _ _
  · split at performed <;> cases performed
    exact .of_inflight _ _ rfl
  · split at performed <;> cases performed
    exact .of_inflight _ _ rfl

theorem untouched_awaitChange {watcher token : Nat} {answer : Wake}
    (performed : state.awaitChange watcher token choice = some (answer, next)) :
    Untouched .awaitChange state next := by
  simp only [DeliveryState.awaitChange] at performed
  split at performed
  · split at performed <;> cases performed
    exact untouched_refl _ _
  · split at performed
    · split at performed <;> cases performed
      constructor <;> first | exact fun _ => rfl | nofun
    · cases performed
  · cases performed
  · cases performed
    exact untouched_refl _ _

end Waits

theorem perform_untouched {validJson : String → Bool} {choice : DeliveryChoice}
    {next : DeliveryState} {request : DeliveryAction} {answer : request.Reply}
    (performed : state.perform validJson choice request = some (answer, next)) :
    Untouched request.kind state next := by
  cases request with
  | start call =>
    simp only [DeliveryState.perform, Option.map_eq_some_iff] at performed
    obtain ⟨broker, _, same⟩ := performed
    cases same
    exact .of_broker broker (by cases call <;> rfl)
  | advance =>
    simp only [DeliveryState.perform, Option.map_eq_some_iff] at performed
    obtain ⟨broker, _, same⟩ := performed
    cases same
    exact .of_broker broker rfl
  | await =>
    simp only [DeliveryState.perform, Option.map_eq_some_iff] at performed
    obtain ⟨_, _, same⟩ := performed
    cases same
    exact untouched_refl _ _
  | register | complete | cancelAck | dropReceiver =>
    cases performed
    exact .of_inflight _ _ rfl
  | awaitAck => exact untouched_awaitAck performed
  | newSemaphore | dropPermit =>
    cases performed
    exact .of_semaphores _ rfl
  | acquire | tryAcquire =>
    simp only [DeliveryState.perform] at performed
    repeat' split at performed
    all_goals cases performed
    all_goals exact .of_semaphores _ rfl
  | spawn =>
    cases performed
    exact .of_tasks _ rfl
  | begin | finish =>
    simp only [DeliveryState.perform, Option.map_eq_some_iff] at performed
    obtain ⟨_, _, same⟩ := performed
    cases same
    exact .of_tasks _ rfl
  | awaitChange => exact untouched_awaitChange performed
  | newLease =>
    simp only [DeliveryState.perform] at performed
    split at performed <;> cases performed
    constructor <;> first | exact fun _ => rfl | exact fun alone => absurd rfl alone
  | cancel =>
    cases performed
    constructor <;> first | exact fun _ => rfl | exact fun alone => absurd rfl alone
  | queueDelivered =>
    simp only [DeliveryState.perform] at performed
    split at performed <;> cases performed
    · exact untouched_refl _ _
    · constructor <;> first | exact fun _ => rfl | nofun
  | takeCommands =>
    simp only [DeliveryState.perform] at performed
    split at performed <;> cases performed
    constructor <;> first | exact fun _ => rfl | nofun
  | respond | watch | raise | now =>
    cases performed
    constructor <;> first | exact fun _ => rfl | nofun
  | join | awaitDelivered | sleep | post =>
    simp only [DeliveryState.perform] at performed
    repeat' split at performed
    all_goals cases performed
    all_goals exact untouched_refl _ _
  | never => cases performed
  | _ =>
    cases performed
    exact untouched_refl _ _

end CanglingBroker
