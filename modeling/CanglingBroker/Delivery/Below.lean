import CanglingBroker.Delivery.Frame

/-!
# The database below deliveries

Deliveries start calls of `Database` and let them take steps; nothing else touches them.
So what a run of deliveries leaves of the database is a schedule of calls, each of which
some delivery has started, and everything that holds of schedules holds below deliveries.
-/

namespace CanglingBroker

open Foundation

variable {validJson : String → Bool}

theorem perform_broker {choice : DeliveryChoice} {state next : DeliveryState}
    {request : DeliveryAction} {answer : request.Reply}
    (performed : state.perform validJson choice request = some (answer, next)) :
    next.broker = state.broker ∨ ∃ event : BrokerEvent,
        Pool.step (databaseComponent validJson) state.broker event = some next.broker ∧
          ∀ call, event = .spawn call → request = .start call := by
  have frame := perform_untouched performed
  cases request with
  | start call =>
    simp only [DeliveryState.perform, Option.map_eq_some_iff] at performed
    obtain ⟨broker, stepped, same⟩ := performed
    cases same
    exact .inr ⟨.spawn call, stepped, fun _ isSpawn => by cases isSpawn; rfl⟩
  | advance thread =>
    simp only [DeliveryState.perform, Option.map_eq_some_iff] at performed
    obtain ⟨broker, stepped, same⟩ := performed
    cases same
    exact .inr ⟨.advance thread choice.database, stepped, fun _ isSpawn => by cases isSpawn⟩
  | _ => exact .inl (frame.broker rfl)

/-- The calls of the database are a schedule, and some delivery has started each of
them. -/
def Scheduled {DeliveryCall : Type} (validJson : String → Bool) (initial : Database)
    (state : DeliveryState)
    (history : List (Performed DeliveryCall DeliveryAction DeliveryAction.Reply DeliveryState)) :
    Prop :=
  ∃ events : List BrokerEvent, schedule validJson initial events = some state.broker ∧
      ∀ call, .spawn call ∈ events → ∃ entry ∈ history, entry.request = .start call

section Runs

variable {DeliveryCall Result : Type}
  {component :
    Component DeliveryCall DeliveryAction DeliveryAction.Reply DeliveryState DeliveryChoice Result}
  {initial : Database} {state : DeliveryState}
  {history : List (Performed DeliveryCall DeliveryAction DeliveryAction.Reply DeliveryState)}

theorem Scheduled.step {event : BrokerEvent} {next : DeliveryState}
    {entries : List (Performed DeliveryCall DeliveryAction DeliveryAction.Reply DeliveryState)}
    (scheduled : Scheduled validJson initial state history)
    (stepped : Pool.step (databaseComponent validJson) state.broker event = some next.broker)
    (kept : ∀ entry ∈ history, entry ∈ entries)
    (started : ∀ call, event = .spawn call → ∃ entry ∈ entries, entry.request = .start call) :
    Scheduled validJson initial next entries := by
  obtain ⟨events, ran, known⟩ := scheduled
  refine ⟨events ++ [event], run_append_eq_some.mpr ⟨_, ran, ?_⟩, fun call member => ?_⟩
  · exact run_cons_eq_some.mpr ⟨_, stepped, run_nil _⟩
  · rcases List.mem_append.mp member with older | newest
    · obtain ⟨entry, listed, asked⟩ := known call older
      exact ⟨entry, kept entry listed, asked⟩
    · exact started call (List.mem_singleton.mp newest).symm

variable {pool : Pool DeliveryCall DeliveryAction DeliveryAction.Reply DeliveryState Result}

theorem scheduled_step {event : PoolEvent DeliveryCall DeliveryChoice}
    {reached : Pool DeliveryCall DeliveryAction DeliveryAction.Reply DeliveryState Result}
    (performs : component.perform = DeliveryState.perform validJson)
    (crashes : component.crash = DeliveryState.crash)
    (scheduled : Scheduled validJson initial pool.shared pool.history)
    (stepped : Pool.step component pool event = some reached) :
    Scheduled validJson initial reached.shared reached.history := by
  rcases Pool.step_cases stepped with
    ⟨call, _, rfl⟩ | ⟨choice, running, entry, next, _, acts, rfl⟩ | ⟨_, rfl⟩
  · rw [Pool.settle_shared, Pool.settle_history]
    exact scheduled
  · rw [Pool.settle_shared, Pool.settle_history]
    have performed := acts.performed
    rw [performs, acts.previous] at performed
    have kept : ∀ older ∈ pool.history, older ∈ entry :: pool.history :=
      fun _ member => .tail _ member
    rcases perform_broker performed with same | ⟨event, acted, started⟩
    · obtain ⟨events, ran, known⟩ := scheduled
      refine ⟨events, same ▸ ran, fun call member => ?_⟩
      obtain ⟨older, listed, asked⟩ := known call member
      exact ⟨older, kept older listed, asked⟩
    · exact
        scheduled.step acted kept fun call isSpawn =>
          ⟨entry, .head _, started call isSpawn⟩
  · rw [crashes]
    exact @Scheduled.step _ _ _ _ _ .crash pool.shared.crash _ scheduled rfl
      (fun _ member => member) nofun

theorem scheduled_of_replay {events : List (PoolEvent DeliveryCall DeliveryChoice)}
    (performs : component.perform = DeliveryState.perform validJson)
    (crashes : component.crash = DeliveryState.crash)
    (ran : Pool.replay component (.start initial) events = some pool) :
    Scheduled validJson initial pool.shared pool.history := by
  refine run_invariant
    (fun scheduled stepped => scheduled_step performs crashes scheduled stepped) ?_ ran
  exact ⟨[], rfl, fun _ member => absurd member List.not_mem_nil⟩

end Runs

end CanglingBroker
