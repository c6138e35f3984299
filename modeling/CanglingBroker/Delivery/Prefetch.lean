import CanglingBroker.Delivery.Permits
import CanglingBroker.Foundation.Ledger

/-!
# What prefetch bounds

A permit stands behind every message that a subscribe loop has sent and that is neither
acknowledged nor given up, whatever streams the loop sent it on.  For one stream this is a
bound as long as no two loops have messages on it at the same time.
-/

namespace CanglingBroker

open Foundation
open Program (Ensures)

/-! ## What is sent and not yet acknowledged -/

namespace Delivery

/-- A message that a subscribe loop has sent: the loop, the lease it was sent under, and the
claim it was sent for. -/
structure Sent where
  thread : Nat
  lease : String
  claim : String × String
  deriving DecidableEq, Repr

def endedLease : DeliveryExchange → Option String
  | ⟨.complete _ lease _ _, true⟩ => some lease
  | ⟨.cancelAck lease, _⟩ => some lease
  | _ => none

/-- What a subscribe loop has put on a stream.  Fan-out of ephemeral messages awaits
nothing. -/
def sentOn (stream : StreamSender) (entry : DeliveryEntry) : List Sent :=
  match entry.call, entry.exchange with
  | .subscribe _ _, ⟨.send other outgoing claim, true⟩ =>
    if other = stream then [⟨entry.thread, outgoing.lease, claim⟩] else []
  | _, _ => []

/-- What subscribe loops have put on a stream and is neither acknowledged nor given up, in
a history with the newest action first. -/
def unacknowledged (stream : StreamSender) : List DeliveryEntry → List Sent
  | [] => []
  | entry :: older =>
    sentOn stream entry ++ (unacknowledged stream older).filter fun sent =>
        endedLease entry.exchange ≠ some sent.lease

/-- The number of claimed messages on a stream that are neither acknowledged nor given
up. -/
def unacknowledgedCount (stream : StreamSender) (pool : DeliveryPool) : Nat :=
  ((unacknowledged stream pool.history).map Sent.claim).dedup.length

end Delivery

/-- The subscribe loop and the stream, if an event is its next send. -/
def nextSend (pool : DeliveryPool) : PoolEvent DeliveryCall DeliveryChoice →
    Option (Nat × StreamSender)
  | .advance thread _ =>
    match pool.threads thread with
    | some ⟨.subscribe _ _, _, .perform (.send stream _ _) _⟩ => some (thread, stream)
    | _ => none
  | _ => none

/-- A subscribe loop sends only on a stream on which no other loop has messages that are
not acknowledged. -/
def SoleSender (pool : DeliveryPool) (event : PoolEvent DeliveryCall DeliveryChoice) : Prop :=
  ∀ sending ∈ nextSend pool event,
    ∀ sent ∈ Delivery.unacknowledged sending.2 pool.history, sent.thread = sending.1

instance (pool : DeliveryPool) (event : PoolEvent DeliveryCall DeliveryChoice) :
    Decidable (SoleSender pool event) :=
  inferInstanceAs (Decidable (∀ sending ∈ nextSend pool event, _))

namespace Delivery

/-! ## The permits of the semaphores -/

def permitsMade (semaphore : Nat) : DeliveryExchange → Int
  | ⟨.newSemaphore permits, made⟩ => if made = semaphore then permits else 0
  | _ => 0

/-- What an action does to the semaphores and the tasks. -/
inductive Moved (state next : DeliveryState) : DeliveryExchange → Prop
  | made {permits : Nat} (semaphores : next.semaphores = state.semaphores ++ [permits])
      (tasks : next.tasks = state.tasks) :
      Moved state next ⟨.newSemaphore permits, state.semaphores.length⟩
  | taken {exchange : DeliveryExchange} {semaphore free : Nat}
      (moved : ∀ other, permitsMoved other exchange = if semaphore = other then 1 else 0)
      (unmade : ∀ other, permitsMade other exchange = 0)
      (unbegun : ∀ task, exchange.request ≠ .begin task)
      (left : state.semaphores[semaphore]? = some (free + 1))
      (semaphores : next.semaphores = state.semaphores.set semaphore free)
      (tasks : next.tasks = state.tasks) : Moved state next exchange
  | given {semaphore : Nat}
      (semaphores :
        next.semaphores =
          state.semaphores.set semaphore ((state.semaphores[semaphore]?).getD 0 + 1))
      (tasks : next.tasks = state.tasks) : Moved state next ⟨.dropPermit semaphore, ()⟩
  | spawned {task : DeliveryTask} (semaphores : next.semaphores = state.semaphores)
      (tasks : next.tasks = state.tasks ++ [(task, .spawned)]) :
      Moved state next ⟨.spawn task, ()⟩
  | begun {task : DeliveryTask} (semaphores : next.semaphores = state.semaphores)
      (tasks : DeliveryState.moveTask task .spawned .running state.tasks = some next.tasks) :
      Moved state next ⟨.begin task, ()⟩
  | ended {task : DeliveryTask} (semaphores : next.semaphores = state.semaphores)
      (tasks : DeliveryState.moveTask task .running .ended state.tasks = some next.tasks) :
      Moved state next ⟨.finish task, ()⟩
  | still {exchange : DeliveryExchange}
      (moved : ∀ semaphore, permitsMoved semaphore exchange = 0)
      (unmade : ∀ semaphore, permitsMade semaphore exchange = 0)
      (unbegun : ∀ task, exchange.request ≠ .begin task)
      (semaphores : next.semaphores = state.semaphores)
      (tasks : next.tasks = state.tasks) : Moved state next exchange

variable {state next : DeliveryState}

theorem perform_moved {validJson : String → Bool} {choice : DeliveryChoice}
    {request : DeliveryAction} {answer : request.Reply}
    (performed : state.perform validJson choice request = some (answer, next)) :
    Moved state next ⟨request, answer⟩ := by
  have frame := perform_untouched performed
  cases request with
  | newSemaphore =>
    cases performed
    exact .made rfl rfl
  | acquire =>
    simp only [DeliveryState.perform] at performed
    split at performed
    · split at performed
      · next free found =>
        cases performed
        exact .taken (fun _ => rfl) (fun _ => rfl) (by rintro _ ⟨⟩) found rfl rfl
      · cases performed
    · split at performed <;> cases performed
      exact .still (fun _ => rfl) (fun _ => rfl) (by rintro _ ⟨⟩) rfl rfl
  | tryAcquire =>
    simp only [DeliveryState.perform] at performed
    split at performed
    · next free found =>
      cases performed
      exact .taken (fun _ => rfl) (fun _ => rfl) (by rintro _ ⟨⟩) found rfl rfl
    · cases performed
      exact .still (fun _ => rfl) (fun _ => rfl) (by rintro _ ⟨⟩) rfl rfl
  | dropPermit =>
    cases performed
    exact .given rfl rfl
  | spawn =>
    cases performed
    exact .spawned rfl rfl
  | begin =>
    obtain ⟨tasks, found, same⟩ := Option.map_eq_some_iff.mp performed
    cases same
    exact .begun rfl found
  | finish =>
    obtain ⟨tasks, found, same⟩ := Option.map_eq_some_iff.mp performed
    cases same
    exact .ended rfl found
  | start call =>
    exact .still (fun _ => rfl) (fun _ => rfl) (by rintro _ ⟨⟩)
      (frame.semaphores (by cases call <;> rfl)) (frame.tasks (by cases call <;> rfl))
  | _ =>
    exact .still (fun _ => rfl) (fun _ => rfl) (by rintro _ ⟨⟩) (frame.semaphores rfl)
      (frame.tasks rfl)

/-- The tasks of a loop that have not begun; each has a permit. -/
def waiting (semaphore : Nat) (tasks : List (DeliveryTask × TaskState)) : List DeliveryTask :=
  (tasks.filter fun entry => entry.1.owner = semaphore ∧ entry.2 = .spawned).map Prod.fst

def permitsKept (semaphore : Nat) (state : DeliveryState) : Int :=
  ((state.semaphores[semaphore]?).getD 0 : Nat) + (waiting semaphore state.tasks).length

theorem length_waiting (semaphore : Nat) (tasks : List (DeliveryTask × TaskState)) :
    (waiting semaphore tasks).length =
      tasks.countP fun entry => entry.1.owner = semaphore ∧ entry.2 = .spawned := by
  rw [waiting, List.length_map, List.countP_eq_length_filter]

variable {task : DeliveryTask}

theorem countP_moveTask {source target : TaskState}
    (counted : DeliveryTask × TaskState → Bool) :
    ∀ {tasks moved : List (DeliveryTask × TaskState)},
      DeliveryState.moveTask task source target tasks = some moved →
        moved.countP counted + (if counted (task, source) then 1 else 0) =
          tasks.countP counted + (if counted (task, target) then 1 else 0)
  | [], _, found => by cases found
  | entry :: rest, moved, found => by
    simp only [DeliveryState.moveTask] at found
    split at found
    · next same =>
      cases found
      rw [same, List.countP_cons, List.countP_cons]
      omega
    · obtain ⟨later, inRest, rfl⟩ := Option.map_eq_some_iff.mp found
      have counts := countP_moveTask counted inRest
      rw [List.countP_cons, List.countP_cons]
      omega

theorem Moved.permits {exchange : DeliveryExchange}
    (moved : Moved state next exchange) (semaphore : Nat) :
    permitsKept semaphore next + permitsMoved semaphore exchange ≤
      permitsKept semaphore state + permitsMade semaphore exchange := by
  unfold permitsKept
  rw [length_waiting, length_waiting]
  cases moved with
  | @made permits semaphores tasks =>
    rw [semaphores, tasks]
    change _ + _ + (0 : Int) ≤ _ + if state.semaphores.length = semaphore then _ else 0
    rcases Nat.lt_trichotomy semaphore state.semaphores.length with below | same | above
    · rw [List.getElem?_append_left below, if_neg (Nat.ne_of_gt below)]
    · rw [if_pos same.symm, same, List.getElem?_concat_length,
        List.getElem?_eq_none (Nat.le_refl _)]
      simp only [Option.getD_some, Option.getD_none]
      omega
    · rw [if_neg (Nat.ne_of_lt above), List.getElem?_eq_none,
        List.getElem?_eq_none (Nat.le_of_lt above)]
      rw [List.length_append]
      exact above
  | @taken _ other free moved unmade _ left semaphores tasks =>
    rw [semaphores, tasks, moved, unmade, List.getElem?_set]
    by_cases same : other = semaphore
    · subst same
      have inside : other < state.semaphores.length := (List.getElem?_eq_some_iff.mp left).1
      rw [if_pos rfl, if_pos rfl, if_pos inside, left]
      simp only [Option.getD_some]
      push_cast
      omega
    · rw [if_neg same, if_neg same]
  | @given other semaphores tasks =>
    rw [semaphores, tasks, List.getElem?_set]
    change _ + (if other = semaphore then (-1 : Int) else 0) ≤ _ + 0
    by_cases same : other = semaphore
    · subst same
      rw [if_pos rfl, if_pos rfl]
      split
      · simp only [Option.getD_some]
        push_cast
        omega
      · simp only [Option.getD_none]
        push_cast
        omega
    · rw [if_neg same, if_neg same]
  | @spawned task semaphores tasks =>
    rw [semaphores, tasks, List.countP_append, List.countP_singleton]
    change _ + (if task.owner = semaphore then (-1 : Int) else 0) ≤ _ + 0
    by_cases same : task.owner = semaphore
    · rw [if_pos same, if_pos (decide_eq_true ⟨same, rfl⟩)]
      push_cast
      omega
    · rw [if_neg same, if_neg fun both => same (of_decide_eq_true both).1]
      omega
  | @begun task semaphores tasks =>
    have counts :=
      countP_moveTask (fun entry => entry.1.owner = semaphore ∧ entry.2 = .spawned) tasks
    rw [semaphores]
    change _ + (if task.owner = semaphore then (1 : Int) else 0) ≤ _ + 0
    rw [if_neg (show ¬decide (task.owner = semaphore ∧ TaskState.running = .spawned) = true
      from fun both => nomatch (of_decide_eq_true both).2)] at counts
    by_cases same : task.owner = semaphore
    · rw [if_pos (decide_eq_true ⟨same, rfl⟩)] at counts
      rw [if_pos same]
      omega
    · rw [if_neg fun both => same (of_decide_eq_true both).1] at counts
      rw [if_neg same]
      omega
  | @ended task semaphores tasks =>
    have counts :=
      countP_moveTask (fun entry => entry.1.owner = semaphore ∧ entry.2 = .spawned) tasks
    rw [semaphores]
    change _ + (0 : Int) ≤ _ + 0
    rw [if_neg (show ¬decide (task.owner = semaphore ∧ TaskState.running = .spawned) = true
      from fun both => nomatch (of_decide_eq_true both).2),
      if_neg (show ¬decide (task.owner = semaphore ∧ TaskState.ended = .spawned) = true
      from fun both => nomatch (of_decide_eq_true both).2)] at counts
    omega
  | still moved unmade _ semaphores tasks => rw [semaphores, tasks, moved, unmade]

def permitBudget (validJson : String → Bool) (semaphore : Nat) :
    Accounts (@LE.le Int _) (deliveryComponent validJson) Permitted
      (fun _ path _ => Discharged path) where
  kept := permitsKept semaphore
  holds := permitsHeld semaphore
  adds := permitsMade semaphore
  holds_nil := rfl
  moves := by
    intro choice current reached request answer call path _ performed
    have moved := (perform_moved performed).permits semaphore
    rw [permitsHeld_cons]
    omega
  returns := fun _ _ _ discharged => discharged.1 semaphore

/-! ## Who answers for a message -/

abbrev Accountable (pool : DeliveryPool) : Prop :=
  Pool.Accounted Permitted (fun _ path _ => Discharged path) pool

/-- A running call with this semaphore answers for the message, or a task that has not
begun. -/
def Carries (pool : DeliveryPool) (semaphore : Nat) (item : Lent) : Prop :=
  (∃ thread, (pool.threads thread).isSome = true ∧
      semaphoreOf (ownPath thread pool.history) = some semaphore ∧
        item ∈ carried (ownPath thread pool.history)) ∨
    ∃ task ∈ waiting semaphore pool.shared.tasks, item ∈ task.lent

/-- Someone with the semaphore of the loop that sent it answers for each message that is
neither acknowledged nor given up. -/
def Vouched (pool : DeliveryPool) : Prop :=
  ∀ stream, ∀ sent ∈ unacknowledged stream pool.history,
    ∃ semaphore, semaphoreOf (ownPath sent.thread pool.history) = some semaphore ∧
      Carries pool semaphore (sent.lease, sent.claim)

theorem mem_waiting {semaphore : Nat} {tasks : List (DeliveryTask × TaskState)} :
    task ∈ waiting semaphore tasks ↔ (task, .spawned) ∈ tasks ∧ task.owner = semaphore := by
  simp [waiting, and_comm, and_assoc]

theorem mem_moveTask {task other : DeliveryTask} {source target : TaskState} :
    ∀ {tasks moved : List (DeliveryTask × TaskState)},
      DeliveryState.moveTask task source target tasks = some moved →
        (other, .spawned) ∈ tasks → (other, .spawned) ∈ moved ∨ (other = task ∧ source = .spawned)
  | [], _, found, _ => by cases found
  | entry :: rest, moved, found, member => by
    simp only [DeliveryState.moveTask] at found
    split at found
    · next same =>
      cases found
      rcases List.mem_cons.mp member with isEntry | later
      · cases isEntry.trans same
        exact .inr ⟨rfl, rfl⟩
      · exact .inl (.tail _ later)
    · obtain ⟨later, inRest, rfl⟩ := Option.map_eq_some_iff.mp found
      rcases List.mem_cons.mp member with isEntry | among
      · exact .inl (isEntry ▸ (.head _))
      · exact (mem_moveTask inRest among).imp (List.mem_cons_of_mem _) id

/-- A task that has not begun stays, or it begins. -/
theorem Moved.waiting {exchange : DeliveryExchange} {semaphore : Nat}
    (moved : Moved state next exchange)
    (member : task ∈ waiting semaphore state.tasks) :
    task ∈ Delivery.waiting semaphore next.tasks ∨ exchange = ⟨.begin task, ()⟩ := by
  obtain ⟨listed, owner⟩ := mem_waiting.mp member
  have stays : (task, .spawned) ∈ next.tasks →
      task ∈ Delivery.waiting semaphore next.tasks ∨ exchange = ⟨.begin task, ()⟩ :=
    fun still => .inl (mem_waiting.mpr ⟨still, owner⟩)
  cases moved with
  | made _ tasks | taken _ _ _ _ _ tasks | given _ tasks | still _ _ _ _ tasks =>
    exact stays (tasks ▸ listed)
  | spawned _ tasks => exact stays (tasks ▸ List.mem_append_left _ listed)
  | begun _ tasks =>
    rcases mem_moveTask tasks listed with still | ⟨rfl, _⟩
    · exact stays still
    · exact .inr rfl
  | ended _ tasks =>
    rcases mem_moveTask tasks listed with still | ⟨_, impossible⟩
    · exact stays still
    · cases impossible

theorem spawned_of_perform {validJson : String → Bool} {choice : DeliveryChoice}
    {request : DeliveryAction} {answer : request.Reply}
    (performed : state.perform validJson choice request = some (answer, next))
    (isSpawn : request = .spawn task) : (task, .spawned) ∈ next.tasks := by
  subst isSpawn
  cases performed
  exact List.mem_append_right _ (List.mem_singleton_self _)

section Steps

variable {call : DeliveryCall} {path : List DeliveryExchange} {request : DeliveryAction}
  {semaphore : Nat}

section

variable (permitted : Permitted call path request) (answer : request.Reply)

include permitted answer

theorem Permitted.owns
    (owns : semaphoreOf path = some semaphore) :
    semaphoreOf (⟨request, answer⟩ :: path) = some semaphore := by
  cases request with
  | newSemaphore => exact absurd (permitted.2.1.symm.trans owns) nofun
  | begin => exact absurd ((permitted.2 : semaphoreOf path = none).symm.trans owns) nofun
  | _ => exact owns

/-- A call answers for a message until the message is ended or handed to a task. -/
theorem Permitted.carried {item : Lent} (owns : semaphoreOf path = some semaphore)
    (member : item ∈ carried path) (unended : endedLease ⟨request, answer⟩ ≠ some item.1) :
    item ∈ Delivery.carried (⟨request, answer⟩ :: path) ∨
      ∃ task, request = .spawn task ∧ task.owner = semaphore ∧ item ∈ task.lent := by
  cases request with
  | begin => exact absurd ((permitted.2 : semaphoreOf path = none).symm.trans owns) nofun
  | spawn task =>
    obtain ⟨owner, handed⟩ := permitted.2
    exact .inr ⟨task, rfl, Option.some.inj (owner.symm.trans owns), handed member⟩
  | dropPermit =>
    have nothing : Delivery.carried path = [] := permitted.2
    rw [nothing] at member
    cases member
  | cancelAck =>
    refine .inl (List.mem_filter.mpr ⟨member, decide_eq_true fun same => ?_⟩)
    exact unended (congrArg some same.symm)
  | send =>
    cases (answer : Bool) with
    | true => exact .inl (.tail _ member)
    | false => exact .inl member
  | _ => exact .inl member

theorem Permitted.sends {stream : StreamSender} {outgoing : SatwayMessage} {claim : String × String}
    (isLoop : ∃ args bound, call = .subscribe args bound)
    (isSend : (⟨request, answer⟩ : DeliveryExchange) = ⟨.send stream outgoing claim, true⟩) :
    ∃ semaphore, semaphoreOf (⟨request, answer⟩ :: path) = some semaphore ∧
      (outgoing.lease, claim) ∈ Delivery.carried (⟨request, answer⟩ :: path) := by
  cases isSend
  obtain ⟨semaphore, owns⟩ := Option.ne_none_iff_exists'.mp (permitted.2 isLoop)
  exact ⟨semaphore, owns, .head _⟩

end

end Steps

section Pools

variable {validJson : String → Bool} {pool reached : DeliveryPool}
  {event : PoolEvent DeliveryCall DeliveryChoice} {semaphore : Nat} {item : Lent} {thread : Nat}

theorem isSome_settle {born : Nat} {call : DeliveryCall} {program : Delivery DeliveryResult}
    (ensured :
      Ensures (Permitted call) (fun path _ => Discharged path) (ownPath thread pool.history)
        program)
    (owns : semaphoreOf (ownPath thread pool.history) = some semaphore)
    (member : item ∈ carried (ownPath thread pool.history)) :
    ((pool.settle thread call born program).threads thread).isSome = true := by
  cases program with
  | done =>
    have nothing : carried (ownPath thread pool.history) = [] :=
      ensured.2 (owns ▸ Option.some_ne_none _)
    rw [nothing] at member
    cases member
  | perform => simp [Pool.settle]

theorem carries_spawn (accountable : Accountable pool) (call : DeliveryCall)
    (carries : Carries pool semaphore item) :
    Carries
      (Pool.settle { pool with fresh := pool.fresh + 1 } pool.fresh call
        pool.history.length (call.body)) semaphore item := by
  rcases carries with ⟨thread, running, owns, member⟩ | ⟨task, listed, member⟩
  · refine .inl ⟨thread, ?_, ?_, ?_⟩
    · obtain ⟨found, isFound⟩ := Option.isSome_iff_exists.mp running
      rw [Pool.settle_threads_of_ne (Nat.ne_of_lt (accountable.runningBelow isFound))]
      exact running
    · rwa [Pool.settle_history]
    · rwa [Pool.settle_history]
  · refine .inr ⟨task, ?_, member⟩
    rwa [Pool.settle_shared]

variable {entry : DeliveryEntry} {next : entry.request.Reply → Delivery DeliveryResult}
  {running : Thread DeliveryCall DeliveryAction DeliveryAction.Reply DeliveryResult}
  {choice : DeliveryChoice}

section

variable (accountable : Accountable pool)
  (acts : Pool.Acts (deliveryComponent validJson) pool choice running entry next)

include accountable acts

/-- The acting call answers for what is on its path now. -/
theorem carries_itself
    (owns : semaphoreOf (entry.exchange :: ownPath entry.thread pool.history) = some semaphore)
    (member : item ∈ carried (entry.exchange :: ownPath entry.thread pool.history)) :
    Carries (pool.acted running entry next) semaphore item := by
  rw [← ownPath_cons_self] at owns member
  refine .inl ⟨entry.thread, isSome_settle (acts.onward accountable) owns member, ?_, ?_⟩
  · rwa [Pool.settle_history]
  · rwa [Pool.settle_history]

theorem carries_act (carries : Carries pool semaphore item)
    (unended : endedLease entry.exchange ≠ some item.1) :
    Carries (pool.acted running entry next) semaphore item := by
  have permitted := acts.asks accountable
  have moved := perform_moved acts.performed
  rw [acts.previous] at moved
  rcases carries with ⟨holder, isRunning, owns, member⟩ | ⟨task, listed, member⟩
  · by_cases acting : holder = entry.thread
    · subst acting
      rcases permitted.carried entry.answer owns member unended with
        still | ⟨task, request, owner, handed⟩
      · exact carries_itself accountable acts (permitted.owns entry.answer owns) still
      · refine .inr ⟨task, ?_, handed⟩
        rw [Pool.settle_shared, mem_waiting]
        exact ⟨spawned_of_perform acts.performed request, owner⟩
    · refine .inl ⟨holder, ?_, ?_, ?_⟩
      · rwa [Pool.settle_threads_of_ne acting]
      · rwa [Pool.settle_history, ownPath_cons_of_ne (Ne.symm acting)]
      · rwa [Pool.settle_history, ownPath_cons_of_ne (Ne.symm acting)]
  · rcases moved.waiting listed with still | begun
    · refine .inr ⟨task, ?_, member⟩
      rwa [Pool.settle_shared]
    · have owner := (mem_waiting.mp listed).2
      refine carries_itself accountable acts ?_ ?_
      · rw [show entry.exchange = _ from begun, ← owner]
        rfl
      · rw [show entry.exchange = _ from begun]
        exact member

end

variable {stream : StreamSender}

theorem mem_unacknowledged_cons {older : List DeliveryEntry} {sent : Sent}
    (member : sent ∈ unacknowledged stream (entry :: older)) :
    sent ∈ sentOn stream entry ∨
      (sent ∈ unacknowledged stream older ∧ endedLease entry.exchange ≠ some sent.lease) := by
  rcases List.mem_append.mp member with newest | listed
  · exact .inl newest
  · obtain ⟨older, open_⟩ := List.mem_filter.mp listed
    exact .inr ⟨older, of_decide_eq_true open_⟩

theorem mem_sentOn {sent : Sent} (member : sent ∈ sentOn stream entry) :
    (∃ args bound, entry.call = .subscribe args bound) ∧
      ∃ outgoing, entry.exchange = ⟨.send stream outgoing sent.claim, true⟩ ∧
        sent.thread = entry.thread ∧ outgoing.lease = sent.lease := by
  unfold sentOn at member
  split at member
  · next args bound other outgoing claim isLoop isSend =>
    split at member
    · next same =>
      cases List.mem_singleton.mp member
      exact ⟨⟨args, bound, isLoop⟩, outgoing, same ▸ isSend, rfl, rfl⟩
    · cases member
  · cases member

theorem vouched_step (accountable : Accountable pool) (vouched : Vouched pool)
    (alive : event ≠ .crash)
    (stepped : Pool.step (deliveryComponent validJson) pool event = some reached) :
    Vouched reached := by
  intro stream sent member
  rcases Pool.step_cases stepped with
    ⟨call, _, rfl⟩ | ⟨choice, running, entry, next, _, acts, rfl⟩ | ⟨crashed, rfl⟩
  · rw [Pool.settle_history] at member ⊢
    obtain ⟨semaphore, owns, carries⟩ := vouched stream sent member
    exact ⟨semaphore, owns, carries_spawn accountable call carries⟩
  · rw [Pool.settle_history] at member ⊢
    have permitted := acts.asks accountable
    rcases mem_unacknowledged_cons member with newest | ⟨older, unended⟩
    · obtain ⟨isLoop, outgoing, isSend, sender, lease⟩ := mem_sentOn newest
      obtain ⟨semaphore, owns, carries⟩ := permitted.sends entry.answer isLoop isSend
      rw [sender, ownPath_cons_self, ← lease]
      exact ⟨semaphore, owns, carries_itself accountable acts owns carries⟩
    · obtain ⟨semaphore, owns, carries⟩ := vouched stream sent older
      refine ⟨semaphore, ?_, carries_act accountable acts carries unended⟩
      by_cases acting : sent.thread = entry.thread
      · rw [acting, ownPath_cons_self]
        exact permitted.owns entry.answer (acting ▸ owns)
      · rwa [ownPath_cons_of_ne (Ne.symm acting)]
  · exact absurd crashed alive

/-! ## The bound -/

theorem covered_running (accountable : Accountable pool)
    (found : pool.threads thread = some running) :
    Covered (ownPath thread pool.history) := by
  have ensured := accountable.running found
  cases shape : running.program with
  | perform =>
    rw [shape] at ensured
    exact ensured.1.1
  | done =>
    rw [shape] at ensured
    obtain ⟨none, nothing⟩ : Discharged _ := ensured
    intro semaphore
    rw [none, claimsFor]
    split
    · next owns =>
      rw [nothing (owns ▸ Option.some_ne_none _)]
      exact Int.le_refl 0
    · exact Int.le_refl 0

/-- The claims that someone with the semaphore answers for. -/
def answeredFor (semaphore : Nat) (pool : DeliveryPool) : Finset (String × String) :=
  ((Finset.range pool.fresh).biUnion fun thread =>
      if (pool.threads thread).isSome then
        claimsFor semaphore (ownPath thread pool.history)
      else
        ∅) ∪
    ((waiting semaphore pool.shared.tasks).map fun task => task.message.pair).toFinset

theorem mem_answeredFor (accountable : Accountable pool) (carries : Carries pool semaphore item) :
    item.2 ∈ answeredFor semaphore pool := by
  rcases carries with ⟨thread, isRunning, owns, member⟩ | ⟨task, listed, member⟩
  · obtain ⟨running, found⟩ := Option.isSome_iff_exists.mp isRunning
    refine Finset.mem_union_left _ (Finset.mem_biUnion.mpr ⟨thread, ?_, ?_⟩)
    · exact Finset.mem_range.mpr (accountable.runningBelow found)
    · rw [if_pos isRunning, claimsFor, if_pos owns, List.mem_toFinset]
      exact List.mem_map_of_mem member
  · refine Finset.mem_union_right _ (List.mem_toFinset.mpr (List.mem_map.mpr ⟨task, listed, ?_⟩))
    obtain ⟨wait, _, rfl⟩ := List.mem_map.mp member
    rfl

theorem card_answeredFor_le (accountable : Accountable pool) :
    ((answeredFor semaphore pool).card : Int) ≤
      permitsKept semaphore pool.shared + Pool.held (permitsHeld semaphore) pool := by
  have threads : (((Finset.range pool.fresh).biUnion fun thread =>
      if (pool.threads thread).isSome then
        claimsFor semaphore (ownPath thread pool.history)
      else
        ∅).card : Int) ≤ Pool.held (permitsHeld semaphore) pool := by
    calc
      _ ≤ ((∑ thread ∈ Finset.range pool.fresh,
          (if (pool.threads thread).isSome then
            claimsFor semaphore (ownPath thread pool.history) else ∅).card : Nat) : Int) := by
        exact_mod_cast Finset.card_biUnion_le
      _ ≤ _ := by
        rw [Pool.held]
        push_cast
        refine Finset.sum_le_sum fun thread _ => ?_
        rw [Pool.heldBy]
        split
        · next isRunning =>
          obtain ⟨running, found⟩ := Option.isSome_iff_exists.mp isRunning
          exact covered_running accountable found semaphore
        · exact Int.le_refl 0
  have tasks :
      ((waiting semaphore pool.shared.tasks).map fun task => task.message.pair).toFinset.card ≤
        (waiting semaphore pool.shared.tasks).length :=
    (List.toFinset_card_le _).trans (Nat.le_of_eq (List.length_map _))
  have union := Finset.card_union_le
    ((Finset.range pool.fresh).biUnion fun thread =>
      if (pool.threads thread).isSome then
        claimsFor semaphore (ownPath thread pool.history)
      else
        ∅)
    ((waiting semaphore pool.shared.tasks).map fun task => task.message.pair).toFinset
  rw [answeredFor, permitsKept]
  omega

theorem Moved.numbered {state next : DeliveryState} {exchange : DeliveryExchange}
    (moved : Moved state next exchange) :
    (∃ permits, exchange = ⟨.newSemaphore permits, state.semaphores.length⟩ ∧
        next.semaphores.length = state.semaphores.length + 1) ∨
      ((∀ semaphore, permitsMade semaphore exchange = 0) ∧
        next.semaphores.length = state.semaphores.length) := by
  cases moved with
  | @made permits semaphores _ =>
    exact .inl ⟨permits, rfl, by rw [semaphores, List.length_append]; rfl⟩
  | taken _ unmade _ _ semaphores => exact .inr ⟨unmade, by rw [semaphores, List.length_set]⟩
  | given semaphores => exact .inr ⟨fun _ => rfl, by rw [semaphores, List.length_set]⟩
  | spawned semaphores | begun semaphores | ended semaphores =>
    exact .inr ⟨fun _ => rfl, by rw [semaphores]⟩
  | still _ unmade _ semaphores => exact .inr ⟨unmade, by rw [semaphores]⟩

def Configured (prefetch : Nat) (pool : DeliveryPool) : Prop :=
  ∀ thread running, pool.threads thread = some running →
    ∀ args bound, running.call = .subscribe args bound → args.config.consumerPrefetch = prefetch

theorem configured_step {prefetch : Nat} (configured : Configured prefetch pool)
    (given :
      ∀ args bound, event = .spawn (.subscribe args bound) →
        args.config.consumerPrefetch = prefetch)
    (stepped : Pool.step (deliveryComponent validJson) pool event = some reached) :
    Configured prefetch reached := by
  intro thread running found args bound isLoop
  rcases Pool.step_cases stepped with
    ⟨call, spawned, rfl⟩ | ⟨_, acting, entry, next, _, acts, rfl⟩ | ⟨_, rfl⟩
  · rcases Pool.settle_running found with ⟨_, same⟩ | ⟨_, older⟩
    · refine given args bound ?_
      rw [spawned, ← isLoop, same]
    · exact configured thread running older args bound isLoop
  · obtain ⟨earlier, older, same⟩ := acts.runs found
    exact configured thread earlier older args bound (same.trans isLoop)
  · cases found

/-- Every semaphore was made with the permits of the prefetch. -/
def MadeWith (prefetch : Nat) (pool : DeliveryPool) : Prop :=
  ∀ semaphore, (pool.history.map fun entry => permitsMade semaphore entry.exchange).sum =
      if semaphore < pool.shared.semaphores.length then ((max prefetch 1 : Nat) : Int) else 0

theorem madeWith_step {prefetch : Nat} (accountable : Accountable pool)
    (configured : Configured prefetch pool) (made : MadeWith prefetch pool)
    (alive : event ≠ .crash)
    (stepped : Pool.step (deliveryComponent validJson) pool event = some reached) :
    MadeWith prefetch reached := by
  intro semaphore
  rcases Pool.step_cases stepped with
    ⟨call, _, rfl⟩ | ⟨_, running, entry, next, _, acts, rfl⟩ | ⟨crashed, _⟩
  · rw [Pool.settle_history, Pool.settle_shared]
    exact made semaphore
  · rw [Pool.settle_history, Pool.settle_shared, List.map_cons, List.sum_cons, made semaphore]
    have moved := perform_moved acts.performed
    rw [acts.previous] at moved
    rcases moved.numbered with ⟨permits, isMade, longer⟩ | ⟨unmade, same⟩
    · have request : entry.request = .newSemaphore permits :=
        congrArg Exchange.request isMade
      have permitted := acts.asks accountable
      rw [request, acts.sameCall] at permitted
      obtain ⟨_, _, args, bound, isLoop, amount⟩ := permitted
      rw [configured entry.thread running acts.found args bound isLoop] at amount
      rw [show entry.exchange = _ from isMade, longer, amount]
      change (if pool.shared.semaphores.length = semaphore then _ else _) + _ = _
      split_ifs <;> omega
    · rw [show permitsMade semaphore entry.exchange = 0 from unmade semaphore, same, zero_add]
  · exact absurd crashed alive

/-- On each stream the messages of at most one loop are not acknowledged. -/
def Sole (pool : DeliveryPool) : Prop :=
  ∀ stream, ∀ first ∈ unacknowledged stream pool.history,
    ∀ second ∈ unacknowledged stream pool.history, first.thread = second.thread

theorem nextSend_eq {outgoing : SatwayMessage} {claim : String × String}
    (acts : Pool.Acts (deliveryComponent validJson) pool choice running entry next)
    (isLoop : ∃ args bound, entry.call = .subscribe args bound)
    (isSend : entry.request = .send stream outgoing claim) :
    nextSend pool (.advance entry.thread choice) = some (entry.thread, stream) := by
  obtain ⟨found, shape, sameCall, _, _⟩ := acts
  obtain ⟨thread, call, request, answer, before, after⟩ := entry
  obtain ⟨called, born, program⟩ := running
  dsimp only at found shape sameCall isLoop isSend
  subst shape sameCall isSend
  obtain ⟨args, bound, rfl⟩ := isLoop
  simp only [nextSend, found]

theorem sole_step (sole : Sole pool) (alone : SoleSender pool event) (alive : event ≠ .crash)
    (stepped : Pool.step (deliveryComponent validJson) pool event = some reached) :
    Sole reached := by
  intro stream first isFirst second isSecond
  rcases Pool.step_cases stepped with
    ⟨call, _, rfl⟩ | ⟨choice, running, entry, next, rfl, acts, rfl⟩ | ⟨crashed, _⟩
  · rw [Pool.settle_history] at isFirst isSecond
    exact sole stream first isFirst second isSecond
  · rw [Pool.settle_history] at isFirst isSecond
    -- what the acting loop has just sent joins only messages of its own
    have joins :
        ∀ newest ∈ sentOn stream entry, ∀ sent ∈ unacknowledged stream (entry :: pool.history),
          sent.thread = newest.thread := by
      intro newest isNewest sent member
      obtain ⟨isLoop, outgoing, isSend, sender, _⟩ := mem_sentOn isNewest
      rw [sender]
      rcases mem_unacknowledged_cons member with also | ⟨older, _⟩
      · exact (mem_sentOn also).2.choose_spec.2.1
      · refine alone (entry.thread, stream) ?_ sent older
        exact nextSend_eq acts isLoop (congrArg Exchange.request isSend)
    rcases mem_unacknowledged_cons isFirst with newest | ⟨olderFirst, _⟩
    · exact (joins first newest second isSecond).symm
    · rcases mem_unacknowledged_cons isSecond with newest | ⟨olderSecond, _⟩
      · exact joins second newest first isFirst
      · exact sole stream first olderFirst second olderSecond
  · exact absurd crashed alive

end Pools

end Delivery

open Delivery in
/-- **Prefetch bounds what is not acknowledged.**  Take any run of subscribe loops with one
`consumer_prefetch`, on any filters and in single and broadcast mode, with all the other
calls around them.  As long as every loop sends only on streams on which no other loop has
unacknowledged messages, no stream ever has more than `max(consumer_prefetch, 1)` of them.
Every moment of a run is the end of a shorter one. -/
theorem unacknowledged_within_prefetch (validJson : String → Bool) (initial : Database)
    (events : DeliveryEvents) (pool : DeliveryPool)
    (ran : deliveries validJson initial events = some pool) (alive : .crash ∉ events)
    (prefetch : Nat)
    (configured :
      ∀ args bound, .spawn (.subscribe args bound) ∈ events →
        args.config.consumerPrefetch = prefetch)
    (alone :
      Along (Pool.step (deliveryComponent validJson)) SoleSender
        (Pool.start (.start initial)) events) (stream : StreamSender) :
    unacknowledgedCount stream pool ≤ max prefetch 1 := by
  let Kept (current : DeliveryPool) : Prop :=
    Accountable current ∧ Vouched current ∧ Configured prefetch current ∧
      MadeWith prefetch current ∧ Sole current
  let Fit (event : PoolEvent DeliveryCall DeliveryChoice) : Prop :=
    event ≠ .crash ∧
      ∀ args bound, event = .spawn (.subscribe args bound) → args.config.consumerPrefetch = prefetch
  have preserved : ∀ {current next : DeliveryPool} {event : PoolEvent DeliveryCall DeliveryChoice},
      Kept current → SoleSender current event ∧ Fit event →
        Pool.step (deliveryComponent validJson) current event = some next → Kept next := by
    intro current next event kept met stepped
    obtain ⟨accountable, vouched, configured, made, sole⟩ := kept
    obtain ⟨alone, alive, given⟩ := met
    exact ⟨Pool.accounted_step ensures_permitted accountable stepped,
      vouched_step accountable vouched alive stepped,
      configured_step configured given stepped,
      madeWith_step accountable configured made alive stepped,
      sole_step sole alone alive stepped⟩
  have initially : Kept (Pool.start (.start initial)) := by
    refine ⟨Pool.accounted_start _, ?_, ?_, fun _ => rfl, ?_⟩
    · exact fun _ _ member => absurd member List.not_mem_nil
    · exact fun _ _ found => nomatch found
    · exact fun _ _ member => absurd member List.not_mem_nil
  have fit : ∀ event ∈ events, Fit event := by
    intro event member
    refine ⟨ne_of_mem_of_not_mem member alive, fun args bound same => ?_⟩
    exact configured args bound (same ▸ member)
  obtain ⟨accountable, vouched, _, made, sole⟩ :=
    run_invariant_along preserved initially (alone.and_of_mem fit) ran
  rw [unacknowledgedCount, ← List.card_toFinset]
  cases open_ : unacknowledged stream pool.history with
  | nil => exact Nat.zero_le _
  | cons newest rest =>
    have isNewest : newest ∈ unacknowledged stream pool.history := open_ ▸ (.head _)
    obtain ⟨semaphore, owns, _⟩ := vouched stream newest isNewest
    have answered : ((newest :: rest).map Sent.claim).toFinset ⊆ answeredFor semaphore pool := by
      intro claim listed
      obtain ⟨sent, member, rfl⟩ := List.mem_map.mp (List.mem_toFinset.mp listed)
      rw [← open_] at member
      obtain ⟨other, alsoOwns, carries⟩ := vouched stream sent member
      rw [sole stream sent member newest isNewest, owns] at alsoOwns
      cases alsoOwns
      exact mem_answeredFor accountable carries
    have within : permitsKept semaphore pool.shared + Pool.held (permitsHeld semaphore) pool ≤
        permitsKept semaphore (.start initial) + _ :=
      (permitBudget validJson semaphore).balanced_of_replay ensures_permitted
        (fun more less => add_le_add_left less more) alive ran
    have permits : (pool.history.map fun entry => permitsMade semaphore entry.exchange).sum ≤
        ((max prefetch 1 : Nat) : Int) := by
      rw [made semaphore]
      split_ifs <;> omega
    have bounded : ((answeredFor semaphore pool).card : Int) ≤ _ := card_answeredFor_le accountable
    have nothing : permitsKept semaphore (.start initial) = 0 := rfl
    have fewer := Finset.card_le_card answered
    rw [nothing, zero_add] at within
    have together := (bounded.trans within).trans permits
    omega

/-- A second loop for the topic, with a stream of its own. -/
def otherLoop : SubscribeLoop :=
  { jobsLoop with session := "other", tx := 1 }

/-- The topic is configured for broadcast, and two messages are stored. -/
def broadcastJobs : DeliveryEvents :=
  .spawn (.background (.configureTopics [⟨"jobs", .broadcast, .persistent⟩])) :: steps 0 1 ++
  engineStep 1 0 {} ++ engineStep 2 0 {} ++ engineStep 3 0 {} ++ engineStep 4 0 {} ++
  .spawn (.write [⟨"s13-m1", none, "jobs", [1], "{}"⟩, ⟨"s13-m2", none, "jobs", [2], "{}"⟩] 1) ::
  steps 5 2 ++
  engineStep 6 1 {} ++ engineStep 7 1 {} ++ engineStep 8 1 {} ++ engineStep 9 1 {}

def sendUnder (thread : Nat) (lease : String) : DeliveryEvents :=
  [.advance thread { uuid := lease }, .advance thread {}, .advance thread { flag := true }]

/-- A loop starts, claims one message and sends it on both streams. -/
def claimAndBroadcast (thread call : Nat) (args : SubscribeLoop) (id lease : String) :
    DeliveryEvents :=
  .spawn (.subscribe args 2) :: steps thread 6 ++
  .advance thread { flag := true } :: steps thread 2 ++
  engineStep (thread + 1) call {} ++ engineStep (thread + 2) call { uuid := lease } ++
  engineStep (thread + 3) call { order := [id] } ++ steps thread 3 ++
  engineStep (thread + 4) (call + 1) {} ++ steps thread 1 ++
  .advance thread { senders := [("session", 0), ("other", 1)] } ::
  sendUnder thread (lease ++ "-0") ++ sendUnder thread (lease ++ "-1")

/-- The event is no crash, and a loop it starts has this prefetch. -/
def hasPrefetch (prefetch : Nat) : PoolEvent DeliveryCall DeliveryChoice → Bool
  | .crash => false
  | .spawn (.subscribe args _) => args.config.consumerPrefetch = prefetch
  | _ => true

/-- One loop of two broadcasts a message while the other has none on the streams. -/
def broadcastsOnce : DeliveryEvents :=
  broadcastJobs ++ claimAndBroadcast 10 2 jobsLoop "s13-m1" "claim-1"

theorem unacknowledged_within_prefetch_broadcastsOnce : ∃ pool,
    deliveries (fun _ => true) Database.empty broadcastsOnce = some pool ∧
      Delivery.unacknowledgedCount 1 pool = 1 ∧
      Delivery.unacknowledgedCount 1 pool ≤ max 1 1 := by
  have fit : broadcastsOnce.all (hasPrefetch 1) = true := by decide +kernel
  refine (exists_some_of_check (by decide +kernel)).imp fun pool reached =>
    ⟨reached.1, reached.2, ?_⟩
  refine unacknowledged_within_prefetch _ _ _ pool reached.1 ?_ 1 ?_ ?_ 1
  · exact fun crashed => Bool.false_ne_true (List.all_eq_true.mp fit _ crashed)
  · exact fun args bound member => of_decide_eq_true (List.all_eq_true.mp fit _ member)
  · exact
      along_of_check (fun current event checked => (of_decide_eq_true checked : SoleSender _ _))
        (by decide +kernel)

/-- Each of two loops with a prefetch of one broadcasts the message it has claimed, and each
of the two streams has two messages that nobody has acknowledged. -/
theorem broadcast_exceeds_prefetch : (deliveries (fun _ => true) Database.empty
    (broadcastsOnce ++ claimAndBroadcast 15 4 otherLoop "s13-m2" "claim-2")).any
      (fun pool =>
        decide
          (max jobsLoop.config.consumerPrefetch 1 = 1 ∧
            max otherLoop.config.consumerPrefetch 1 = 1 ∧
            Delivery.unacknowledgedCount 0 pool = 2 ∧
            Delivery.unacknowledgedCount 1 pool = 2)) = true := by
  decide +kernel

end CanglingBroker
