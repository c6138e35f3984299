import CanglingBroker.Foundation.Program

/-!
# Interleaved calls over a shared state

A scheduler picks a call and lets it perform its next action; calls may be started at any
time, and a crash drops every running call together with the volatile part of the state.
The history of performed actions, newest first, is read by no action.
`Pool.history_induction` is the invariant rule.
-/

namespace CanglingBroker
namespace Foundation

variable {Call Action Shared Choice Outcome : Type} {Reply : Action → Type}

/-- What a component's calls are made of: the effect of each action, what a
crash leaves of the shared state, and the program of each call. -/
structure Component (Call Action : Type) (Reply : Action → Type)
    (Shared Choice Outcome : Type) where
  perform : Choice → Shared → (request : Action) → Option (Reply request × Shared)
  crash : Shared → Shared
  program : Call → Program Action Reply Outcome

structure Performed (Call Action : Type) (Reply : Action → Type) (Shared : Type) where
  thread : Nat
  call : Call
  request : Action
  answer : Reply request
  before : Shared
  after : Shared

/-- Forget who performed the action and the states around it. -/
def Performed.exchange (entry : Performed Call Action Reply Shared) :
    Exchange Action Reply :=
  ⟨entry.request, entry.answer⟩

def ownPath (thread : Nat) (history : List (Performed Call Action Reply Shared)) :
    List (Exchange Action Reply) :=
  (history.filter fun entry => entry.thread = thread).map Performed.exchange

/-- A running call; `born` is the length of the history when it started. -/
structure Thread (Call Action : Type) (Reply : Action → Type) (Outcome : Type) where
  call : Call
  born : Nat
  program : Program Action Reply Outcome

/-- A call that has returned. -/
structure Finished (Call Outcome : Type) where
  thread : Nat
  call : Call
  born : Nat
  result : Outcome

/-- The running calls over their shared state.  Thread numbers are never
reused: `fresh` is the next one. -/
structure Pool (Call Action : Type) (Reply : Action → Type) (Shared Outcome : Type) where
  shared : Shared
  threads : Nat → Option (Thread Call Action Reply Outcome)
  fresh : Nat
  history : List (Performed Call Action Reply Shared)
  finished : List (Finished Call Outcome)

/-- What the scheduler can do. -/
inductive PoolEvent (Call Choice : Type) where
  | spawn (call : Call)
  | advance (thread : Nat) (choice : Choice)
  | crash

namespace Pool

def Quiescent (pool : Pool Call Action Reply Shared Outcome) : Prop :=
  ∀ thread, pool.threads thread = none

/-- The pool before the first call. -/
def start (initial : Shared) : Pool Call Action Reply Shared Outcome where
  shared := initial
  threads := fun _ => none
  fresh := 0
  history := []
  finished := []

/-- Leave a thread with what remains of its program: a returned call becomes an
entry of `finished`. -/
def settle (pool : Pool Call Action Reply Shared Outcome)
    (thread : Nat) (call : Call) (born : Nat) :
    Program Action Reply Outcome → Pool Call Action Reply Shared Outcome
  | .done value =>
    { pool with
      threads := Function.update pool.threads thread none
      finished := ⟨thread, call, born, value⟩ :: pool.finished }
  | program =>
    { pool with
      threads := Function.update pool.threads thread (some ⟨call, born, program⟩) }

def step (component : Component Call Action Reply Shared Choice Outcome)
    (pool : Pool Call Action Reply Shared Outcome) :
    PoolEvent Call Choice → Option (Pool Call Action Reply Shared Outcome)
  | .spawn call =>
    some <| settle { pool with fresh := pool.fresh + 1 } pool.fresh call
        pool.history.length (component.program call)
  | .advance thread choice =>
    match pool.threads thread with
    | none => none
    | some running =>
      match running.program with
      | .done _ => none
      | .perform request next =>
        match component.perform choice pool.shared request with
        | none => none
        | some (answer, after) =>
          some <| settle
              { pool with
                shared := after
                history :=
                  ⟨thread, running.call, request, answer, pool.shared, after⟩ :: pool.history }
              thread running.call running.born (next answer)
  | .crash =>
    some
      { pool with
        shared := component.crash pool.shared
        threads := fun _ => none }

/-- The action a call performs next. -/
def next? (pool : Pool Call Action Reply Shared Outcome) (thread : Nat) : Option Action :=
  match pool.threads thread with
  | none => none
  | some running =>
    match running.program with
    | .done _ => none
    | .perform request _ => some request

def replay (component : Component Call Action Reply Shared Choice Outcome)
    (initial : Shared) (events : List (PoolEvent Call Choice)) :
    Option (Pool Call Action Reply Shared Outcome) :=
  run (step component) (start initial) events

end Pool

/-! ## Bookkeeping -/

section OwnPath

variable {history : List (Performed Call Action Reply Shared)} {thread : Nat}

@[simp]
theorem ownPath_nil (thread : Nat) :
    ownPath thread ([] : List (Performed Call Action Reply Shared)) = [] :=
  rfl

theorem ownPath_cons_self (entry : Performed Call Action Reply Shared) :
    ownPath entry.thread (entry :: history) = entry.exchange :: ownPath entry.thread history := by
  simp [ownPath]

theorem ownPath_cons_of_ne {entry : Performed Call Action Reply Shared}
    (different : entry.thread ≠ thread) :
    ownPath thread (entry :: history) = ownPath thread history := by
  simp [ownPath, different]

theorem ownPath_append (thread : Nat) (newer older : List (Performed Call Action Reply Shared)) :
    ownPath thread (newer ++ older) = ownPath thread newer ++ ownPath thread older := by
  simp [ownPath]

theorem mem_ownPath {entry : Performed Call Action Reply Shared} (member : entry ∈ history)
    (own : entry.thread = thread) :
    entry.exchange ∈ ownPath thread history :=
  List.mem_map.mpr ⟨entry, List.mem_filter.mpr ⟨member, decide_eq_true own⟩, rfl⟩

variable {exchange : Exchange Action Reply}

theorem exists_performed_of_mem_ownPath (member : exchange ∈ ownPath thread history) :
    ∃ entry ∈ history, entry.thread = thread ∧ entry.exchange = exchange := by
  obtain ⟨entry, kept, same⟩ := List.mem_map.mp member
  obtain ⟨stored, own⟩ := List.mem_filter.mp kept
  exact ⟨entry, stored, of_decide_eq_true own, same⟩

/-- Every split of a thread's path is a split of the history. -/
theorem exists_split_of_ownPath {thread : Nat} :
    ∀ {history : List (Performed Call Action Reply Shared)}
      {newer older : List (Exchange Action Reply)},
      ownPath thread history = newer ++ exchange :: older → ∃ after entry before,
          history = after ++ entry :: before ∧ entry.thread = thread ∧
            entry.exchange = exchange ∧ ownPath thread before = older
  | [], newer, older, split => by
    simp at split
  | first :: rest, newer, older, split => by
    by_cases own : first.thread = thread
    · subst own
      rw [ownPath_cons_self] at split
      cases newer with
      | nil =>
        rw [List.nil_append, List.cons.injEq] at split
        exact ⟨[], first, rest, rfl, rfl, split.1, split.2⟩
      | cons =>
        rw [List.cons_append, List.cons.injEq] at split
        obtain ⟨after, entry, before, rfl, sameThread, same, path⟩ :=
          exists_split_of_ownPath split.2
        exact ⟨first :: after, entry, before, rfl, sameThread, same, path⟩
    · rw [ownPath_cons_of_ne own] at split
      obtain ⟨after, entry, before, rfl, sameThread, same, path⟩ := exists_split_of_ownPath split
      exact ⟨first :: after, entry, before, rfl, sameThread, same, path⟩

theorem ownPath_eq_nil (foreign : ∀ entry ∈ history, entry.thread ≠ thread) :
    ownPath thread history = [] := by
  rw [ownPath, List.map_eq_nil_iff, List.filter_eq_nil_iff]
  intro entry member
  simpa using foreign entry member

end OwnPath

namespace Pool

variable {pool reached : Pool Call Action Reply Shared Outcome}

section

variable (thread : Nat) (call : Call) (born : Nat) (program : Program Action Reply Outcome)

include thread call born program

@[simp]
theorem settle_shared :
    (pool.settle thread call born program).shared = pool.shared := by
  cases program with
  | done => rfl
  | perform => rfl

@[simp]
theorem settle_fresh :
    (pool.settle thread call born program).fresh = pool.fresh := by
  cases program with
  | done => rfl
  | perform => rfl

@[simp]
theorem settle_history :
    (pool.settle thread call born program).history = pool.history := by
  cases program with
  | done => rfl
  | perform => rfl

end

variable {program : Program Action Reply Outcome} {thread born : Nat}

theorem settle_running {other : Nat} {call : Call} {running : Thread Call Action Reply Outcome}
    (found : (pool.settle thread call born program).threads other = some running) :
    (other = thread ∧ running = ⟨call, born, program⟩) ∨
      (other ≠ thread ∧ pool.threads other = some running) := by
  cases program with
  | done =>
    by_cases same : other = thread
    · simp [settle, same] at found
    · exact .inr ⟨same, by simpa [settle, same] using found⟩
  | perform =>
    by_cases same : other = thread
    · refine .inl ⟨same, ?_⟩
      simpa [settle, same, eq_comm] using found
    · exact .inr ⟨same, by simpa [settle, same] using found⟩

theorem settle_threads_of_ne {other : Nat} (different : other ≠ thread) (call : Call) (born : Nat)
    (program : Program Action Reply Outcome) :
    (pool.settle thread call born program).threads other = pool.threads other := by
  cases program with
  | done | perform => simp [settle, different]

variable {entry : Finished Call Outcome}

theorem settle_finished {call : Call}
    (found : entry ∈ (pool.settle thread call born program).finished) :
    (∃ value, program = .done value ∧ entry = ⟨thread, call, born, value⟩) ∨
      entry ∈ pool.finished := by
  cases program with
  | done value =>
    simp only [settle, List.mem_cons] at found
    exact found.imp (fun same => ⟨value, rfl, same⟩) id
  | perform => exact .inr found

theorem mem_settle_finished (thread : Nat) (call : Call) (born : Nat)
    (program : Program Action Reply Outcome) (returned : entry ∈ pool.finished) :
    entry ∈ (pool.settle thread call born program).finished := by
  cases program with
  | done => exact .tail _ returned
  | perform => exact returned

variable {component : Component Call Action Reply Shared Choice Outcome}
  {event : PoolEvent Call Choice}

/-- A running call performs its next action. -/
structure Acts (component : Component Call Action Reply Shared Choice Outcome)
    (pool : Pool Call Action Reply Shared Outcome) (choice : Choice)
    (running : Thread Call Action Reply Outcome) (entry : Performed Call Action Reply Shared)
    (next : Reply entry.request → Program Action Reply Outcome) : Prop where
  found : pool.threads entry.thread = some running
  shape : running.program = .perform entry.request next
  sameCall : entry.call = running.call
  previous : entry.before = pool.shared
  performed :
    component.perform choice entry.before entry.request = some (entry.answer, entry.after)

/-- The pool after an action of a running call. -/
abbrev acted (pool : Pool Call Action Reply Shared Outcome)
    (running : Thread Call Action Reply Outcome) (entry : Performed Call Action Reply Shared)
    (next : Reply entry.request → Program Action Reply Outcome) :
    Pool Call Action Reply Shared Outcome :=
  settle { pool with shared := entry.after, history := entry :: pool.history } entry.thread
    running.call running.born (next entry.answer)

/-- What one step of the scheduler is: a new call, one action of a running
call, or a crash. -/
theorem step_cases (stepped : step component pool event = some reached) :
    (∃ call, event = .spawn call ∧ reached =
        settle { pool with fresh := pool.fresh + 1 } pool.fresh call
          pool.history.length (component.program call)) ∨
    (∃ choice running entry next, event = .advance entry.thread choice ∧
      Acts component pool choice running entry next ∧ reached = pool.acted running entry next) ∨
    (event = .crash ∧ reached = { pool with
        shared := component.crash pool.shared
        threads := fun _ => none }) := by
  cases event with
  | spawn call =>
    simp only [step, Option.some.injEq] at stepped
    exact .inl ⟨call, rfl, stepped.symm⟩
  | advance thread choice =>
    refine .inr (.inl ?_)
    simp only [step] at stepped
    split at stepped
    · cases stepped
    · next running found =>
      split at stepped
      · cases stepped
      · next request next shape =>
        split at stepped
        · cases stepped
        · next answer after performed =>
          simp only [Option.some.injEq] at stepped
          exact ⟨choice, running, ⟨thread, running.call, request, answer, pool.shared, after⟩,
            next, rfl, ⟨found, shape, rfl, rfl, performed⟩, stepped.symm⟩
  | crash =>
    simp only [step, Option.some.injEq] at stepped
    exact .inr (.inr ⟨rfl, stepped.symm⟩)

theorem mem_finished_of_step (returned : entry ∈ pool.finished)
    (stepped : step component pool event = some reached) :
    entry ∈ reached.finished := by
  rcases step_cases stepped with
    ⟨call, _, rfl⟩ | ⟨_, running, performed, next, _, _, rfl⟩ | ⟨_, rfl⟩
  · exact mem_settle_finished _ _ _ _ returned
  · exact mem_settle_finished _ _ _ _ returned
  · exact returned

/-- Nothing among the oldest `born` entries of the history is by this thread. -/
def StartedAt (thread born : Nat) (history : List (Performed Call Action Reply Shared)) : Prop :=
  born ≤ history.length ∧ ∀ entry ∈ history.drop (history.length - born), entry.thread ≠ thread

theorem StartedAt.cons {history : List (Performed Call Action Reply Shared)}
    (started : StartedAt thread born history) (entry : Performed Call Action Reply Shared) :
    StartedAt thread born (entry :: history) := by
  obtain ⟨bound, foreign⟩ := started
  refine ⟨by simp only [List.length_cons]; omega, ?_⟩
  have shifted : (entry :: history).length - born = (history.length - born) + 1 := by
    simp only [List.length_cons]
    omega
  rw [shifted, List.drop_succ_cons]
  exact foreign

theorem StartedAt.foreign {newer older : List (Performed Call Action Reply Shared)}
    (started : StartedAt thread born (newer ++ older)) (elder : older.length ≤ born) :
    ∀ entry ∈ older, entry.thread ≠ thread := by
  intro entry member
  apply started.2 entry
  have cut : (newer ++ older).length - born ≤ newer.length := by
    simp only [List.length_append]
    omega
  rw [List.drop_append_of_le_length cut]
  exact List.mem_append_right _ member

/-- The facts a schedule always keeps about its calls, given what each call's
program ensures about its own path. -/
structure Accounted (before : Call → List (Exchange Action Reply) → Action → Prop)
    (after : Call → List (Exchange Action Reply) → Outcome → Prop)
    (pool : Pool Call Action Reply Shared Outcome) : Prop where
  runningBelow :
    ∀ {thread running}, pool.threads thread = some running → thread < pool.fresh
  performedBelow : ∀ entry ∈ pool.history, entry.thread < pool.fresh
  finishedBelow : ∀ entry ∈ pool.finished, entry.thread < pool.fresh
  running :
    ∀ {thread running}, pool.threads thread = some running →
      Program.Ensures (before running.call) (after running.call)
        (ownPath thread pool.history) running.program
  finished :
    ∀ entry ∈ pool.finished, after entry.call (ownPath entry.thread pool.history) entry.result
  finishedIdle : ∀ entry ∈ pool.finished, pool.threads entry.thread = none
  finishedOnce : (pool.finished.map Finished.thread).Nodup
  runningBorn :
    ∀ {thread running}, pool.threads thread = some running →
      StartedAt thread running.born pool.history
  finishedBorn :
    ∀ entry ∈ pool.finished, StartedAt entry.thread entry.born pool.history

section Accounting

variable
  {before : Call → List (Exchange Action Reply) → Action → Prop}
  {after : Call → List (Exchange Action Reply) → Outcome → Prop}

theorem accounted_start (initial : Shared) : Accounted before after
    (start initial : Pool Call Action Reply Shared Outcome) where
  runningBelow := by intro thread running found; cases found
  performedBelow := by intro entry member; cases member
  finishedBelow := by intro entry member; cases member
  running := by intro thread running found; cases found
  finished := by intro entry member; cases member
  finishedIdle := by intro entry member; cases member
  finishedOnce := List.nodup_nil
  runningBorn := by intro thread running found; cases found
  finishedBorn := by intro entry member; cases member

/-- Settling a thread keeps the account: the thread is new to `finished`, its
remaining program meets its specification, and every other thread's facts
already stood over the pool it is settled in. -/
theorem Accounted.settle {thread : Nat} {call : Call} {born : Nat}
    {program : Program Action Reply Outcome}
    (others :
      ∀ {other running}, other ≠ thread → pool.threads other = some running → other < pool.fresh ∧
          Program.Ensures (before running.call) (after running.call)
            (ownPath other pool.history) running.program ∧
          StartedAt other running.born pool.history) (threadBelow : thread < pool.fresh)
    (performedBelow : ∀ entry ∈ pool.history, entry.thread < pool.fresh)
    (returned :
      ∀ entry ∈ pool.finished, entry.thread ≠ thread ∧ entry.thread < pool.fresh ∧
          after entry.call (ownPath entry.thread pool.history) entry.result ∧
          pool.threads entry.thread = none ∧
          StartedAt entry.thread entry.born pool.history)
    (once : (pool.finished.map Finished.thread).Nodup)
    (ensured : Program.Ensures (before call) (after call) (ownPath thread pool.history) program)
    (started : StartedAt thread born pool.history) :
    Accounted before after (pool.settle thread call born program) where
  runningBelow := by
    intro other running found
    rw [settle_fresh]
    rcases settle_running found with ⟨rfl, _⟩ | ⟨different, older⟩
    · exact threadBelow
    · exact (others different older).1
  performedBelow := by
    intro entry member
    rw [settle_history] at member
    rw [settle_fresh]
    exact performedBelow entry member
  finishedBelow := by
    intro entry member
    rw [settle_fresh]
    rcases settle_finished member with ⟨value, _, rfl⟩ | older
    · exact threadBelow
    · exact (returned entry older).2.1
  running := by
    intro other running found
    rw [settle_history]
    rcases settle_running found with ⟨rfl, rfl⟩ | ⟨different, older⟩
    · exact ensured
    · exact (others different older).2.1
  finished := by
    intro entry member
    rw [settle_history]
    rcases settle_finished member with ⟨value, rfl, rfl⟩ | older
    · exact ensured
    · exact (returned entry older).2.2.1
  finishedIdle := by
    intro entry member
    cases program with
    | done =>
      rcases settle_finished member with ⟨_, _, rfl⟩ | older
      · simp [Pool.settle]
      · have idle := (returned entry older).2.2.2.1
        by_cases same : entry.thread = thread
        · simp [Pool.settle, same]
        · simpa [Pool.settle, same] using idle
    | perform =>
      obtain ⟨different, _, _, idle, _⟩ := returned entry member
      simpa [Pool.settle, different] using idle
  finishedOnce := by
    cases program with
    | done =>
      simp only [Pool.settle, List.map_cons, List.nodup_cons]
      refine ⟨?_, once⟩
      intro member
      obtain ⟨entry, older, same⟩ := List.mem_map.mp member
      exact (returned entry older).1 same
    | perform => exact once
  runningBorn := by
    intro other running found
    rw [settle_history]
    rcases settle_running found with ⟨rfl, rfl⟩ | ⟨different, older⟩
    · exact started
    · exact (others different older).2.2
  finishedBorn := by
    intro entry member
    rw [settle_history]
    rcases settle_finished member with ⟨value, _, rfl⟩ | older
    · exact started
    · exact (returned entry older).2.2.2.2

/-- No action is by the call that is started next. -/
theorem Accounted.ownPath_fresh (accounted : Accounted before after pool) :
    ownPath pool.fresh pool.history = [] :=
  ownPath_eq_nil fun entry member => Nat.ne_of_lt (accounted.performedBelow entry member)

section Acting

variable {component : Component Call Action Reply Shared Choice Outcome} {choice : Choice}
  {running : Thread Call Action Reply Outcome} {entry : Performed Call Action Reply Shared}
  {next : Reply entry.request → Program Action Reply Outcome}
  (acts : Acts component pool choice running entry next)

include acts

theorem Acts.next? : pool.next? entry.thread = some entry.request := by
  simp only [Pool.next?, acts.found, acts.shape]

/-- The path of the call allows the action. -/
theorem Acts.asks (accounted : Accounted before after pool) :
    before entry.call (ownPath entry.thread pool.history) entry.request := by
  have ensured := accounted.running acts.found
  rw [acts.shape, Program.ensures_perform, ← acts.sameCall] at ensured
  exact ensured.1

theorem Acts.onward (accounted : Accounted before after pool) :
    Program.Ensures (before running.call) (after running.call)
      (ownPath entry.thread (entry :: pool.history)) (next entry.answer) := by
  have ensured := accounted.running acts.found
  rw [acts.shape, Program.ensures_perform] at ensured
  rw [ownPath_cons_self]
  exact ensured.2 entry.answer

/-- Every call that runs afterwards ran before. -/
theorem Acts.runs {thread : Nat} {runner : Thread Call Action Reply Outcome}
    (found : (pool.acted running entry next).threads thread = some runner) :
    ∃ earlier, pool.threads thread = some earlier ∧ earlier.call = runner.call := by
  rcases settle_running found with ⟨rfl, rfl⟩ | ⟨_, before⟩
  · exact ⟨running, acts.found, rfl⟩
  · exact ⟨runner, before, rfl⟩

end Acting

variable {component : Component Call Action Reply Shared Choice Outcome}

theorem accounted_step
    (programs : ∀ call, Program.Ensures (before call) (after call) [] (component.program call))
    {event : PoolEvent Call Choice} (accounted : Accounted before after pool)
    (stepped : step component pool event = some reached) :
    Accounted before after reached := by
  rcases step_cases stepped with
    ⟨call, _, rfl⟩ | ⟨choice, running, entry, next, _, acts, rfl⟩ | ⟨_, rfl⟩
  · -- a new call takes the number `fresh`, which no entry carries yet
    have noneYet : ∀ entry ∈ pool.history, entry.thread ≠ pool.fresh := by
      intro entry member
      exact Nat.ne_of_lt (accounted.performedBelow entry member)
    refine Accounted.settle ?_ ?_ ?_ ?_ accounted.finishedOnce ?_ ?_
    · intro other running different found
      exact ⟨Nat.lt_succ_of_lt (accounted.runningBelow found),
        accounted.running found, accounted.runningBorn found⟩
    · exact Nat.lt_succ_self pool.fresh
    · intro entry member
      exact Nat.lt_succ_of_lt (accounted.performedBelow entry member)
    · intro entry member
      have below := accounted.finishedBelow entry member
      exact ⟨Nat.ne_of_lt below, Nat.lt_succ_of_lt below,
        accounted.finished entry member,
        accounted.finishedIdle entry member,
        accounted.finishedBorn entry member⟩
    · change
        Program.Ensures (before call) (after call)
          (ownPath pool.fresh pool.history) (component.program call)
      rw [accounted.ownPath_fresh]
      exact programs call
    · refine ⟨Nat.le_refl _, ?_⟩
      intro entry member
      exact noneYet entry (List.mem_of_mem_drop member)
  · -- one action of a running call lengthens only its own path
    refine Accounted.settle ?_ ?_ ?_ ?_ accounted.finishedOnce (acts.onward accounted) ?_
    · intro other otherRunning different otherFound
      refine ⟨accounted.runningBelow otherFound, ?_, (accounted.runningBorn otherFound).cons entry⟩
      rw [ownPath_cons_of_ne (Ne.symm different)]
      exact accounted.running otherFound
    · exact accounted.runningBelow acts.found
    · intro performed member
      rcases List.mem_cons.mp member with rfl | older
      · exact accounted.runningBelow acts.found
      · exact accounted.performedBelow performed older
    · intro returned member
      have idle := accounted.finishedIdle returned member
      have different : returned.thread ≠ entry.thread := by
        intro same
        rw [same, acts.found] at idle
        cases idle
      refine ⟨different, accounted.finishedBelow returned member, ?_, idle,
        (accounted.finishedBorn returned member).cons entry⟩
      rw [ownPath_cons_of_ne (Ne.symm different)]
      exact accounted.finished returned member
    · exact (accounted.runningBorn acts.found).cons entry
  · exact
      { runningBelow := by intro thread running found; cases found
        performedBelow := accounted.performedBelow
        finishedBelow := accounted.finishedBelow
        running := by intro thread running found; cases found
        finished := accounted.finished
        finishedIdle := by intro entry member; rfl
        finishedOnce := accounted.finishedOnce
        runningBorn := by intro thread running found; cases found
        finishedBorn := accounted.finishedBorn }

variable {events : List (PoolEvent Call Choice)}

section

variable (programs : ∀ call, Program.Ensures (before call) (after call) [] (component.program call))

include programs

theorem accounted_replay
    {initial : Shared} (replayed : replay component initial events = some pool) :
    Accounted before after pool :=
  run_invariant
    (fun accounted stepped => accounted_step programs accounted stepped)
    (accounted_start initial) replayed

/-- The invariant rule for pools: what a step keeps that meets a condition, given the account,
holds at the end of every run whose steps all meet it. -/
theorem invariant_along {holds : Pool Call Action Reply Shared Outcome → Prop}
    {meets : Pool Call Action Reply Shared Outcome → PoolEvent Call Choice → Prop}
    (preserved :
      ∀ {current reached : Pool Call Action Reply Shared Outcome} {event : PoolEvent Call Choice},
        Accounted before after current → holds current → meets current event →
          step component current event = some reached → holds reached)
    {initial : Shared} (initially : holds (start initial))
    (along : Along (step component) meets (start initial) events)
    (replayed : replay component initial events = some pool) : holds pool := by
  let Kept (current : Pool Call Action Reply Shared Outcome) : Prop :=
    Accounted before after current ∧ holds current
  have both : Kept pool :=
    run_invariant_along
      (fun kept met stepped =>
        ⟨accounted_step programs kept.1 stepped, preserved kept.1 kept.2 met stepped⟩)
      ⟨accounted_start initial, initially⟩ along replayed
  exact both.2

section Invariant

variable (holds : Shared → List (Performed Call Action Reply Shared) → Prop)
  (acts :
    ∀ (entry : Performed Call Action Reply Shared)
      (history : List (Performed Call Action Reply Shared))
      (choice : Choice),
      holds entry.before history →
      component.perform choice entry.before entry.request = some (entry.answer, entry.after) →
      before entry.call (ownPath entry.thread history) entry.request →
        holds entry.after (entry :: history))
  (crashes :
    ∀ (current : Shared) (history : List (Performed Call Action Reply Shared)),
      holds current history → holds (component.crash current) history)

include acts crashes

/-- The invariant rule for interleaved calls, from any point of a schedule: a
property of the shared state and the history is kept when a crash keeps it, and
an action keeps it whenever the path of the call that performs it allows the
request. -/
theorem history_induction_from
    {origin : Pool Call Action Reply Shared Outcome} (accounted : Accounted before after origin)
    (initially : holds origin.shared origin.history)
    (ran : run (step component) origin events = some pool) :
    holds pool.shared pool.history := by
  have preserved : ∀ {current reached : Pool Call Action Reply Shared Outcome}
      {event : PoolEvent Call Choice},
      Accounted before after current ∧ holds current.shared current.history →
        step component current event = some reached →
          Accounted before after reached ∧ holds reached.shared reached.history := by
    rintro current reached event ⟨accounted, held⟩ stepped
    refine ⟨accounted_step programs accounted stepped, ?_⟩
    rcases step_cases stepped with
      ⟨call, _, rfl⟩ | ⟨choice, running, entry, next, _, action, rfl⟩ | ⟨_, rfl⟩
    · rw [settle_shared, settle_history]
      exact held
    · rw [settle_shared, settle_history]
      rw [← action.previous] at held
      exact acts entry current.history choice held action.performed (action.asks accounted)
    · exact crashes current.shared current.history held
  exact (run_invariant preserved ⟨accounted, initially⟩ ran).2

/-- The invariant rule for a whole schedule. -/
theorem history_induction {initial : Shared} (initially : holds initial [])
    (replayed : replay component initial events = some pool) :
    holds pool.shared pool.history :=
  history_induction_from programs holds acts crashes (accounted_start initial) initially replayed

end Invariant

end

theorem allowed_of_replay {allowed : Call → Action → Prop}
    {results : Call → List (Exchange Action Reply) → Outcome → Prop}
    (programs :
      ∀ call, Program.Ensures (fun _ request => allowed call request) (results call) []
          (component.program call)) {initial : Shared}
    (replayed : replay component initial events = some pool) :
    ∀ entry ∈ pool.history, allowed entry.call entry.request := by
  refine history_induction programs
    (fun _ history => ∀ entry ∈ history, allowed entry.call entry.request)
    ?_ (fun _ _ held => held) (fun _ member => absurd member List.not_mem_nil) replayed
  intro entry history choice held performed asked other member
  rcases List.mem_cons.mp member with rfl | older
  · exact asked
  · exact held other older

end Accounting

/-! ## The calls of a schedule -/

/-- What all started calls have, every call that acts has. -/
theorem performed_of_spawned {good : Call → Prop} {initial : Shared}
    {events : List (PoolEvent Call Choice)} (spawned : ∀ call, .spawn call ∈ events → good call)
    (replayed : replay component initial events = some pool) :
    ∀ entry ∈ pool.history, good entry.call := by
  have preserved : ∀ {current reached : Pool Call Action Reply Shared Outcome}
      {event : PoolEvent Call Choice},
      ((∀ thread running, current.threads thread = some running → good running.call) ∧
        ∀ entry ∈ current.history, good entry.call) →
      (∀ call, event = .spawn call → good call) → step component current event = some reached →
          (∀ thread running, reached.threads thread = some running → good running.call) ∧
            ∀ entry ∈ reached.history, good entry.call := by
    rintro current reached event ⟨running, acted⟩ starts stepped
    rcases step_cases stepped with
      ⟨call, asked, rfl⟩ | ⟨_, runner, entry, next, _, action, rfl⟩ | ⟨_, rfl⟩
    · rw [settle_history]
      refine ⟨fun other started isRunning => ?_, acted⟩
      rcases settle_running isRunning with ⟨_, rfl⟩ | ⟨_, before⟩
      · exact starts call asked
      · exact running other started before
    · rw [settle_history]
      have runs := running entry.thread runner action.found
      refine ⟨fun other started isRunning => ?_, fun performed member => ?_⟩
      · rcases settle_running isRunning with ⟨_, rfl⟩ | ⟨_, before⟩
        · exact runs
        · exact running other started before
      · rcases List.mem_cons.mp member with rfl | older
        · rw [action.sameCall]
          exact runs
        · exact acted performed older
    · refine ⟨fun other started isRunning => ?_, acted⟩
      cases isRunning
  refine (run_invariant_along preserved
    ⟨fun other started isRunning => ?_, fun entry member => ?_⟩ ?_ replayed).2
  · cases isRunning
  · cases member
  · exact along_of_mem fun event member call asked => spawned call (asked ▸ member)

/-- All actions of a thread are by its call. -/
structure Consistent (pool : Pool Call Action Reply Shared Outcome) : Prop where
  running :
    ∀ {thread running}, pool.threads thread = some running →
      ∀ entry ∈ pool.history, entry.thread = thread → entry.call = running.call
  finished :
    ∀ returned ∈ pool.finished, ∀ entry ∈ pool.history,
      entry.thread = returned.thread → entry.call = returned.call

theorem consistent_start (initial : Shared) :
    (start initial : Pool Call Action Reply Shared Outcome).Consistent where
  running := by intro thread running found; cases found
  finished := by intro returned member; cases member

theorem consistent_step {before : Call → List (Exchange Action Reply) → Action → Prop}
    {after : Call → List (Exchange Action Reply) → Outcome → Prop}
    (accounted : Accounted before after pool) (consistent : pool.Consistent)
    (stepped : step component pool event = some reached) :
    reached.Consistent := by
  rcases step_cases stepped with
    ⟨call, _, rfl⟩ | ⟨_, runner, entry, next, _, action, rfl⟩ | ⟨_, rfl⟩
  · constructor
    · intro other running isRunning performed member same
      rw [settle_history] at member
      rcases settle_running isRunning with ⟨rfl, _⟩ | ⟨_, before⟩
      · exact absurd same (accounted.performedBelow performed member).ne
      · exact consistent.running before performed member same
    · intro returned isFinished performed member same
      rw [settle_history] at member
      rcases settle_finished isFinished with ⟨value, _, rfl⟩ | before
      · exact absurd same (accounted.performedBelow performed member).ne
      · exact consistent.finished returned before performed member same
  · have acted :
        ∀ performed ∈ entry :: pool.history, performed.thread = entry.thread →
          performed.call = runner.call := by
      intro performed member same
      rcases List.mem_cons.mp member with rfl | older
      · exact action.sameCall
      · exact consistent.running action.found performed older same
    constructor
    · intro other running isRunning performed member same
      rw [settle_history] at member
      rcases settle_running isRunning with ⟨rfl, rfl⟩ | ⟨different, before⟩
      · exact acted performed member same
      · rcases List.mem_cons.mp member with rfl | older
        · exact absurd same.symm different
        · exact consistent.running before performed older same
    · intro returned isFinished performed member same
      rw [settle_history] at member
      rcases settle_finished isFinished with ⟨value, _, rfl⟩ | before
      · exact acted performed member same
      · rcases List.mem_cons.mp member with rfl | older
        · have idle := accounted.finishedIdle returned before
          rw [← same, action.found] at idle
          cases idle
        · exact consistent.finished returned before performed older same
  · refine ⟨fun isRunning => ?_, consistent.finished⟩
    cases isRunning

/-! ## Counting over all calls -/

section Counting

variable {Item : Type} [BEq Item]

private theorem sum_ite_le {thread amount : Nat} : ∀ {threads : List Nat}, threads.Nodup →
    (threads.map fun other => if thread = other then amount else 0).sum ≤ amount
  | [], _ => by simp
  | first :: rest, unique => by
    obtain ⟨notLater, laterUnique⟩ := List.nodup_cons.mp unique
    rw [List.map_cons, List.sum_cons]
    by_cases same : thread = first
    · have later :
          (rest.map fun other => if thread = other then amount else 0).sum = 0 := by
        rw [List.sum_eq_zero]
        intro value member
        obtain ⟨other, listed, rfl⟩ := List.mem_map.mp member
        rw [if_neg]
        rintro rfl
        exact notLater (same ▸ listed)
      rw [if_pos same, later]
      omega
    · rw [if_neg same, Nat.zero_add]
      exact sum_ite_le laterUnique

/-- What different threads have on their paths adds up to no more than what the
history has. -/
theorem sum_count_ownPath_le (items : Exchange Action Reply → List Item) (item : Item)
    {threads : List Nat} (unique : threads.Nodup) :
    ∀ history : List (Performed Call Action Reply Shared),
      (threads.map fun thread => ((ownPath thread history).flatMap items).count item).sum ≤
        (history.flatMap fun entry => items entry.exchange).count item
  | [] => by simp
  | entry :: rest => by
    have split : ∀ thread,
        ((ownPath thread (entry :: rest)).flatMap items).count item =
          (if entry.thread = thread then
            (items entry.exchange).count item else 0) +
            ((ownPath thread rest).flatMap items).count item := by
      intro thread
      by_cases own : entry.thread = thread
      · subst own
        rw [ownPath_cons_self, List.flatMap_cons, List.count_append, if_pos rfl]
      · rw [ownPath_cons_of_ne own, if_neg own, Nat.zero_add]
    simp only [split, List.sum_map_add, List.flatMap_cons, List.count_append]
    exact Nat.add_le_add (sum_ite_le unique) (sum_count_ownPath_le items item unique rest)

/-- What the returned calls claim, each backed by its own path, adds up to no
more than what the history has. -/
theorem count_finished_le {before : Call → List (Exchange Action Reply) → Action → Prop}
    {after : Call → List (Exchange Action Reply) → Outcome → Prop}
    (accounted : Accounted before after pool) (items : Exchange Action Reply → List Item)
    (claimed : Finished Call Outcome → List Item) (item : Item)
    (backed :
      ∀ entry ∈ pool.finished, (claimed entry).count item ≤
          ((ownPath entry.thread pool.history).flatMap items).count item) :
    (pool.finished.flatMap claimed).count item ≤
      (pool.history.flatMap fun entry => items entry.exchange).count item := by
  calc
    (pool.finished.flatMap claimed).count item =
        (pool.finished.map fun entry => (claimed entry).count item).sum := by
      rw [List.count_flatMap]
      rfl
    _ ≤ (pool.finished.map fun entry =>
        ((ownPath entry.thread pool.history).flatMap items).count item).sum :=
      List.sum_le_sum backed
    _ = ((pool.finished.map Finished.thread).map fun thread =>
        ((ownPath thread pool.history).flatMap items).count item).sum := by
      rw [List.map_map]
      rfl
    _ ≤ (pool.history.flatMap fun entry => items entry.exchange).count item :=
      sum_count_ownPath_le items item accounted.finishedOnce pool.history

end Counting

/-! ## Traces -/

/-- The actions of a schedule, newest first, and the state they lead to.  Each
action is one the path of its call allows. -/
inductive Trace (component : Component Call Action Reply Shared Choice Outcome)
    (may : Call → List (Exchange Action Reply) → Action → Prop)
    (initial : Shared) :
    List (Performed Call Action Reply Shared) → Shared → Prop
  | start : Trace component may initial [] initial
  | crash {history : List (Performed Call Action Reply Shared)} {current : Shared}
      (earlier : Trace component may initial history current) :
      Trace component may initial history (component.crash current)
  | act {history : List (Performed Call Action Reply Shared)}
      (entry : Performed Call Action Reply Shared) (choice : Choice)
      (earlier : Trace component may initial history entry.before)
      (performed :
        component.perform choice entry.before entry.request = some (entry.answer, entry.after))
      (allowed : may entry.call (ownPath entry.thread history) entry.request) :
      Trace component may initial (entry :: history) entry.after

section Traces

variable {component : Component Call Action Reply Shared Choice Outcome}
  {may : Call → List (Exchange Action Reply) → Action → Prop}
  {result : Call → List (Exchange Action Reply) → Outcome → Prop}
  {initial current : Shared}

theorem trace_of_replay
    (programs : ∀ call, Program.Ensures (may call) (result call) [] (component.program call))
    {events : List (PoolEvent Call Choice)}
    (replayed : replay component initial events = some pool) :
    Trace component may initial pool.history pool.shared := by
  refine history_induction programs
    (fun current history => Trace component may initial history current)
    ?_ ?_ .start replayed
  · intro entry history choice earlier performed allowed
    exact .act entry choice earlier performed allowed
  · intro current history earlier
    exact .crash earlier

variable {newer older : List (Performed Call Action Reply Shared)}
  {entry : Performed Call Action Reply Shared}

/-- A trace can be cut before any of its actions. -/
theorem Trace.cut
    (trace : Trace component may initial (newer ++ entry :: older) current) :
    Trace component may initial older entry.before ∧ (∃ choice,
        component.perform choice entry.before entry.request = some (entry.answer, entry.after)) ∧
      may entry.call (ownPath entry.thread older) entry.request := by
  generalize shape : newer ++ entry :: older = whole at trace
  induction trace generalizing newer with
  | start => simp at shape
  | crash _ ih => exact ih shape
  | act _ choice earlier performed allowed ih =>
    cases newer with
    | nil =>
      rw [List.nil_append, List.cons.injEq] at shape
      obtain ⟨rfl, rfl⟩ := shape
      exact ⟨earlier, ⟨choice, performed⟩, allowed⟩
    | cons =>
      rw [List.cons_append, List.cons.injEq] at shape
      exact ih shape.2

/-- The invariant rule from one action of a trace on: what holds right after it
and is kept by what follows holds at the end. -/
theorem Trace.since (holds : Shared → List (Performed Call Action Reply Shared) → Prop)
    (initially : holds entry.after [])
    (crashes :
      ∀ (current : Shared) (newer : List (Performed Call Action Reply Shared)),
        holds current newer → holds (component.crash current) newer)
    (acts :
      ∀ (next : Performed Call Action Reply Shared)
        (newer : List (Performed Call Action Reply Shared)) (choice : Choice),
        Trace component may initial (newer ++ entry :: older) next.before →
        holds next.before newer →
        component.perform choice next.before next.request = some (next.answer, next.after) →
        may next.call (ownPath next.thread (newer ++ entry :: older))
          next.request →
          holds next.after (next :: newer))
    (trace : Trace component may initial (newer ++ entry :: older) current) :
    holds current newer := by
  generalize shape : newer ++ entry :: older = whole at trace
  induction trace generalizing newer with
  | start => simp at shape
  | crash _ ih => exact crashes _ newer (ih shape)
  | act _ choice earlier performed allowed ih =>
    cases newer with
    | nil =>
      rw [List.nil_append, List.cons.injEq] at shape
      obtain ⟨rfl, rfl⟩ := shape
      exact initially
    | cons head tail =>
      rw [List.cons_append, List.cons.injEq] at shape
      obtain ⟨rfl, rfl⟩ := shape
      exact acts head tail choice earlier (ih rfl) performed allowed

end Traces

end Pool

end Foundation
end CanglingBroker
