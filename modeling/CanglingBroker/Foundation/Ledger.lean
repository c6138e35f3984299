import CanglingBroker.Foundation.Pool

/-!
# What calls hold

`Accounts` say what each action of a call takes out of the shared state or puts back.  Where
they are exact, a ledger, what is kept and what the running calls hold is what was there at
the start and what was added since, unless a call that holds something is dropped; where an
action only makes no more than comes in, a budget, it is no more than that.
-/

namespace CanglingBroker
namespace Foundation

variable {Call Action Shared Choice Outcome : Type} {Reply : Action → Type}

/-! ## Calls that can be dropped -/

/-- What happens to calls that are not run to their end. -/
inductive DropEvent (Call Choice : Type) where
  | spawn (call : Call)
  | advance (thread : Nat) (choice : Choice)
  | drop (thread : Nat)
  deriving DecidableEq, Repr

namespace Pool

def abandon (pool : Pool Call Action Reply Shared Outcome) (thread : Nat) :
    Pool Call Action Reply Shared Outcome :=
  { pool with threads := Function.update pool.threads thread none }

/-- One step.  A call can be dropped where its next action is one that it waits for. -/
def dropStep (component : Component Call Action Reply Shared Choice Outcome)
    (awaits : Action → Bool) (pool : Pool Call Action Reply Shared Outcome) :
    DropEvent Call Choice → Option (Pool Call Action Reply Shared Outcome)
  | .spawn call => step component pool (.spawn call)
  | .advance thread choice => step component pool (.advance thread choice)
  | .drop thread =>
    match pool.threads thread with
    | none => none
    | some running =>
      match running.program with
      | .done _ => none
      | .perform request _ => if awaits request then some (pool.abandon thread) else none

variable {pool reached : Pool Call Action Reply Shared Outcome}
  {component : Component Call Action Reply Shared Choice Outcome} {awaits : Action → Bool}

theorem dropStep_cases {event : DropEvent Call Choice}
    (stepped : dropStep component awaits pool event = some reached) :
    (∃ inner, step component pool inner = some reached ∧
        inner ≠ .crash ∧ ∀ thread, event ≠ .drop thread) ∨
      ∃ thread, event = .drop thread ∧ (pool.threads thread).isSome = true ∧
        reached = pool.abandon thread := by
  cases event with
  | spawn call => exact .inl ⟨.spawn call, stepped, nofun, nofun⟩
  | advance thread choice => exact .inl ⟨.advance thread choice, stepped, nofun, nofun⟩
  | drop thread =>
    refine .inr ⟨thread, rfl, ?_⟩
    simp only [dropStep] at stepped
    split at stepped
    · cases stepped
    · next running found =>
      split at stepped
      · cases stepped
      · split at stepped <;> cases stepped
        exact ⟨by rw [found]; rfl, rfl⟩

section Accounting

variable
  {before : Call → List (Exchange Action Reply) → Action → Prop}
  {after : Call → List (Exchange Action Reply) → Outcome → Prop}

theorem abandon_running {thread other : Nat} {running : Thread Call Action Reply Outcome}
    (found : (pool.abandon thread).threads other = some running) :
    other ≠ thread ∧ pool.threads other = some running := by
  by_cases same : other = thread
  · simp [abandon, same] at found
  · exact ⟨same, by simpa [abandon, same] using found⟩

theorem Accounted.abandon (accounted : Accounted before after pool) (thread : Nat) :
    Accounted before after (pool.abandon thread) where
  runningBelow := fun found => accounted.runningBelow (abandon_running found).2
  performedBelow := accounted.performedBelow
  finishedBelow := accounted.finishedBelow
  running := fun found => accounted.running (abandon_running found).2
  finished := accounted.finished
  finishedIdle := by
    intro entry member
    by_cases same : entry.thread = thread
    · simp [Pool.abandon, same]
    · simpa [Pool.abandon, same] using accounted.finishedIdle entry member
  finishedOnce := accounted.finishedOnce
  runningBorn := fun found => accounted.runningBorn (abandon_running found).2
  finishedBorn := accounted.finishedBorn

theorem accounted_dropStep
    (programs : ∀ call, Program.Ensures (before call) (after call) [] (component.program call))
    {event : DropEvent Call Choice} (accounted : Accounted before after pool)
    (stepped : dropStep component awaits pool event = some reached) :
    Accounted before after reached := by
  rcases dropStep_cases stepped with ⟨inner, plain, _, _⟩ | ⟨thread, _, _, rfl⟩
  · exact accounted_step programs accounted plain
  · exact accounted.abandon thread

end Accounting

end Pool

/-! ## Amounts -/

section Amounts

variable {Amount : Type} [AddCommGroup Amount]

namespace Pool

/-- What one call holds, where `holds` tells it from the path of the call; only running
calls hold anything. -/
def heldBy (holds : List (Exchange Action Reply) → Amount)
    (pool : Pool Call Action Reply Shared Outcome) (thread : Nat) : Amount :=
  if (pool.threads thread).isSome then holds (ownPath thread pool.history) else 0

def held (holds : List (Exchange Action Reply) → Amount)
    (pool : Pool Call Action Reply Shared Outcome) : Amount :=
  ∑ thread ∈ Finset.range pool.fresh, heldBy holds pool thread

section Held

variable {before : Call → List (Exchange Action Reply) → Action → Prop}
  {after : Call → List (Exchange Action Reply) → Outcome → Prop}
  {component : Component Call Action Reply Shared Choice Outcome}
  {pool reached : Pool Call Action Reply Shared Outcome}
  {holds : List (Exchange Action Reply) → Amount}

theorem heldBy_settle_of_ne {thread other : Nat} (different : other ≠ thread) (call : Call)
    (born : Nat) (program : Program Action Reply Outcome) :
    heldBy holds (pool.settle thread call born program) other = heldBy holds pool other := by
  rw [heldBy, heldBy, settle_threads_of_ne different, settle_history]

variable {thread : Nat}

theorem held_exchange (below : thread < pool.fresh) (fresh : reached.fresh = pool.fresh)
    (others : ∀ other, other ≠ thread → heldBy holds reached other = heldBy holds pool other) :
    held holds reached + heldBy holds pool thread =
      held holds pool + heldBy holds reached thread := by
  have member : thread ∈ Finset.range pool.fresh := Finset.mem_range.mpr below
  rw [held, held, fresh, ← Finset.add_sum_erase _ _ member,
    ← Finset.add_sum_erase _ (heldBy holds pool) member,
    Finset.sum_congr rfl fun other listed => others other (Finset.ne_of_mem_erase listed)]
  abel

theorem held_abandon (accounted : Accounted before after pool)
    (isRunning : (pool.threads thread).isSome = true) :
    held holds (pool.abandon thread) + heldBy holds pool thread = held holds pool := by
  obtain ⟨running, found⟩ := Option.isSome_iff_exists.mp isRunning
  have others : ∀ other, other ≠ thread →
      heldBy holds (pool.abandon thread) other = heldBy holds pool other := by
    intro other different
    simp [heldBy, abandon, different]
  have exchanged := held_exchange (accounted.runningBelow found) (by rfl) others
  have nothing : heldBy holds (pool.abandon thread) thread = 0 := by
    simp [heldBy, abandon]
  rwa [nothing, add_zero] at exchanged

variable (returns : ∀ call path outcome, after call path outcome → holds path = 0)

include returns

theorem heldBy_settle {call : Call} {born : Nat} {program : Program Action Reply Outcome}
    (ensured : Program.Ensures (before call) (after call) (ownPath thread pool.history) program) :
    heldBy holds (pool.settle thread call born program) thread =
      holds (ownPath thread pool.history) := by
  cases program with
  | done =>
    rw [returns _ _ _ ensured]
    simp [heldBy, settle]
  | perform => simp [heldBy, settle]

theorem held_spawn
    (programs : ∀ call, Program.Ensures (before call) (after call) [] (component.program call))
    (empty : holds [] = 0) (accounted : Accounted before after pool) (call : Call) :
    held holds
        (settle { pool with fresh := pool.fresh + 1 } pool.fresh call
          pool.history.length (component.program call)) =
      held holds pool := by
  have nothing := accounted.ownPath_fresh
  have none : heldBy holds
      (settle { pool with fresh := pool.fresh + 1 } pool.fresh call
        pool.history.length (component.program call)) pool.fresh = 0 := by
    rw [heldBy_settle returns (by rw [nothing]; exact programs call), nothing, empty]
  rw [held, held, settle_fresh, Finset.sum_range_succ, none, add_zero]
  refine Finset.sum_congr rfl fun other listed => ?_
  exact heldBy_settle_of_ne (Nat.ne_of_lt (Finset.mem_range.mp listed)) _ _ _

theorem held_act {choice : Choice} {running : Thread Call Action Reply Outcome}
    {entry : Performed Call Action Reply Shared}
    {next : Reply entry.request → Program Action Reply Outcome}
    (accounted : Accounted before after pool)
    (acts : Acts component pool choice running entry next) :
    held holds (pool.acted running entry next) + holds (ownPath entry.thread pool.history) =
      held holds pool + holds (entry.exchange :: ownPath entry.thread pool.history) := by
  generalize settled : pool.acted running entry next = reached
  have now : heldBy holds reached entry.thread =
      holds (entry.exchange :: ownPath entry.thread pool.history) := by
    rw [← settled, ← ownPath_cons_self]
    exact heldBy_settle returns (acts.onward accounted)
  have was : heldBy holds pool entry.thread = holds (ownPath entry.thread pool.history) := by
    rw [heldBy, acts.found]
    rfl
  have others :
      ∀ other, other ≠ entry.thread → heldBy holds reached other = heldBy holds pool other := by
    intro other different
    rw [← settled, heldBy_settle_of_ne different, heldBy, heldBy,
      ownPath_cons_of_ne (Ne.symm different)]
  have exchanged :=
    held_exchange (accounted.runningBelow acts.found) (by rw [← settled, settle_fresh]) others
  rwa [now, was] at exchanged

end Held

end Pool

/-- What each action of a call moves between the shared state, the call and the outside:
`kept` is what the state keeps, `holds` what a call on its path has taken out of it, and
`adds` what comes in.  `relates` compares what there is after an action with what there was
and what came in.  A call holds nothing before its first action and when it has returned. -/
structure Accounts (relates : Amount → Amount → Prop)
    (component : Component Call Action Reply Shared Choice Outcome)
    (before : Call → List (Exchange Action Reply) → Action → Prop)
    (after : Call → List (Exchange Action Reply) → Outcome → Prop) where
  kept : Shared → Amount
  holds : List (Exchange Action Reply) → Amount
  adds : Exchange Action Reply → Amount
  holds_nil : holds [] = 0
  moves :
    ∀ {choice : Choice} {current reached : Shared} {request : Action}
      {answer : Reply request} {call : Call} {path : List (Exchange Action Reply)},
      before call path request → component.perform choice current request = some (answer, reached) →
          relates (kept reached + holds (⟨request, answer⟩ :: path))
            (kept current + holds path + adds ⟨request, answer⟩)
  returns : ∀ call path outcome, after call path outcome → holds path = 0

namespace Accounts

variable {component : Component Call Action Reply Shared Choice Outcome}
  {before : Call → List (Exchange Action Reply) → Action → Prop}
  {after : Call → List (Exchange Action Reply) → Outcome → Prop}
  {relates : Amount → Amount → Prop}

def heldBy (accounts : Accounts relates component before after)
    (pool : Pool Call Action Reply Shared Outcome) (thread : Nat) : Amount :=
  Pool.heldBy accounts.holds pool thread

def held (accounts : Accounts relates component before after)
    (pool : Pool Call Action Reply Shared Outcome) : Amount :=
  Pool.held accounts.holds pool

def added (accounts : Accounts relates component before after)
    (history : List (Performed Call Action Reply Shared)) : Amount :=
  (history.map fun entry => accounts.adds entry.exchange).sum

def Balanced (accounts : Accounts relates component before after) (initial : Shared)
    (pool : Pool Call Action Reply Shared Outcome) : Prop :=
  relates (accounts.kept pool.shared + accounts.held pool)
    (accounts.kept initial + accounts.added pool.history)

variable {accounts : Accounts relates component before after}
  {pool reached : Pool Call Action Reply Shared Outcome} {initial : Shared}

theorem balanced_start [Std.Refl relates] (initial : Shared) :
    accounts.Balanced initial (Pool.start initial) := by
  simpa [Balanced, held, added, Pool.held, Pool.start] using Std.Refl.refl (accounts.kept initial)

section Steps

variable (programs : ∀ call, Program.Ensures (before call) (after call) [] (component.program call))

section

variable [IsTrans Amount relates]
  (shift : ∀ {left right : Amount} (more : Amount), relates left right →
    relates (left + more) (right + more))

include shift

theorem balanced_act {choice : Choice} {running : Thread Call Action Reply Outcome}
    {entry : Performed Call Action Reply Shared}
    {next : Reply entry.request → Program Action Reply Outcome}
    (accounted : Pool.Accounted before after pool) (balanced : accounts.Balanced initial pool)
    (acts : Pool.Acts component pool choice running entry next) :
    accounts.Balanced initial (pool.acted running entry next) := by
  have exchanged := Pool.held_act accounts.returns accounted acts
  have moved := shift (accounts.held pool - accounts.holds (ownPath entry.thread pool.history))
    (accounts.moves (acts.asks accounted) acts.performed)
  rw [Balanced, ← acts.previous] at balanced
  rw [Balanced, Pool.settle_history, Pool.settle_shared, added, List.map_cons, List.sum_cons]
  refine IsTrans.trans _
    (accounts.kept entry.before + accounts.held pool + accounts.adds entry.exchange) _ ?_ ?_
  · convert moved using 1
    · rw [held, held, eq_sub_of_add_eq exchanged, Performed.exchange]
      abel
    · rw [Performed.exchange]
      abel
  · convert shift (accounts.adds entry.exchange) balanced using 1
    rw [added]
    abel

include programs

theorem balanced_step {event : PoolEvent Call Choice}
    (accounted : Pool.Accounted before after pool) (balanced : accounts.Balanced initial pool)
    (alive : event ≠ .crash) (stepped : Pool.step component pool event = some reached) :
    accounts.Balanced initial reached := by
  rcases Pool.step_cases stepped with
    ⟨call, _, rfl⟩ | ⟨_, running, entry, next, _, acts, rfl⟩ | ⟨crashed, rfl⟩
  · rw [Balanced, held, Pool.held_spawn accounts.returns programs accounts.holds_nil accounted,
      Pool.settle_shared, Pool.settle_history]
    exact balanced
  · exact balanced_act shift accounted balanced acts
  · exact absurd crashed alive

theorem balanced_of_replay [Std.Refl relates] (accounts : Accounts relates component before after)
    {events : List (PoolEvent Call Choice)} (alive : .crash ∉ events)
    (ran : Pool.replay component initial events = some pool) :
    accounts.Balanced initial pool := by
  have along : Along (Pool.step component) (fun _ event => event ≠ .crash) (Pool.start initial)
      events :=
    along_of_mem fun event member => ne_of_mem_of_not_mem member alive
  exact Pool.invariant_along programs
    (fun accounted kept met stepped => balanced_step programs shift accounted kept met stepped)
    (balanced_start initial) along ran

end

/-! ## Ledgers -/

variable {ledger : Accounts (@Eq Amount) component before after}

include programs

/-- A step keeps the balance exactly when it drops no call that holds something. -/
theorem balanced_dropStep_iff {awaits : Action → Bool} {event : DropEvent Call Choice}
    (accounted : Pool.Accounted before after pool) (balanced : ledger.Balanced initial pool)
    (stepped : Pool.dropStep component awaits pool event = some reached) :
    ledger.Balanced initial reached ↔
      ∀ thread, event = .drop thread → ledger.heldBy pool thread = 0 := by
  rcases Pool.dropStep_cases stepped with
    ⟨inner, plain, alive, notDropped⟩ | ⟨thread, rfl, isRunning, rfl⟩
  · refine ⟨fun _ thread dropped => absurd dropped (notDropped thread), fun _ => ?_⟩
    exact balanced_step programs (fun more => congrArg (· + more)) accounted balanced alive plain
  · have taken : ledger.held (pool.abandon thread) + ledger.heldBy pool thread = _ :=
      Pool.held_abandon accounted isRunning
    rw [Balanced, held, ← taken, ← add_assoc] at balanced
    constructor
    · intro still other dropped
      cases dropped
      exact left_eq_add.mp (still.trans balanced.symm)
    · intro nothing
      rw [nothing thread rfl, add_zero] at balanced
      exact balanced

/-- Whether the balance holds at every moment of a run is decided by the calls that are
dropped. -/
theorem balanced_throughout_iff (ledger : Accounts (@Eq Amount) component before after)
    {awaits : Action → Bool} {events : List (DropEvent Call Choice)}
    (ran : run (Pool.dropStep component awaits) (Pool.start initial) events = some pool) :
    Throughout (Pool.dropStep component awaits) (ledger.Balanced initial)
        (Pool.start initial) events ↔
      Along (Pool.dropStep component awaits)
        (fun current event => ∀ thread, event = .drop thread → ledger.heldBy current thread = 0)
        (Pool.start initial) events := by
  rw [← throughout_and_iff
    (fun accounted stepped => Pool.accounted_dropStep programs accounted stepped)
    (Pool.accounted_start initial)]
  refine throughout_iff_along ?_ ⟨Pool.accounted_start initial, balanced_start initial⟩ ran
  intro current reached event holds stepped
  have exactly := balanced_dropStep_iff programs holds.1 holds.2 stepped
  refine ⟨fun still => exactly.mp still.2, fun met => ⟨?_, exactly.mpr met⟩⟩
  exact Pool.accounted_dropStep programs holds.1 stepped

end Steps

end Accounts

end Amounts

end Foundation
end CanglingBroker
