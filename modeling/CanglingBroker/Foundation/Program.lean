import CanglingBroker.Foundation.Run

/-!
# Programs over atomic actions

A call of a concurrent component has returned, or performs one atomic action and goes on
with the reply.  `Program.Ensures` is the rule of pre- and postconditions for such trees; it
speaks about the path of the call alone, newest exchange first.
-/

namespace CanglingBroker
namespace Foundation

/-- A call that performs actions one at a time. -/
inductive Program (Action : Type) (Reply : Action → Type) (Result : Type) where
  | done (value : Result)
  | perform (request : Action) (next : Reply request → Program Action Reply Result)

variable {Action : Type} {Reply : Action → Type}

/-- One action with the reply it was given. -/
structure Exchange (Action : Type) (Reply : Action → Type) where
  request : Action
  answer : Reply request

instance [DecidableEq Action] [∀ request, DecidableEq (Reply request)] :
    DecidableEq (Exchange Action Reply)
  | ⟨request, answer⟩, ⟨other, otherAnswer⟩ =>
    if same : request = other then by
      subst same
      exact
        if equal : answer = otherAnswer then
          isTrue (congrArg _ equal)
        else
          isFalse fun both => equal (eq_of_heq (Exchange.mk.inj both).2)
    else
      isFalse fun both => same (Exchange.mk.inj both).1

namespace Program

variable {Result Later : Type}

/-- Sequencing: graft the continuation onto every leaf. -/
def andThen :
    Program Action Reply Result → (Result → Program Action Reply Later) → Program Action Reply Later
  | .done value, continuation => continuation value
  | .perform request next, continuation =>
    .perform request fun answer => andThen (next answer) continuation

instance : Monad (Program Action Reply) where
  pure := .done
  bind := andThen

/-- The program that performs one action and returns its reply. -/
def ask (request : Action) : Program Action Reply (Reply request) :=
  .perform request .done

@[simp]
theorem perform_bind (request : Action) (next : Reply request → Program Action Reply Result)
    (continuation : Result → Program Action Reply Later) :
    (Program.perform request next >>= continuation) =
      .perform request fun answer => next answer >>= continuation :=
  rfl

/-- `Ensures before after path program`: from the path walked so far, every
request the program can make satisfies `before` of the path it is made on, and
every result it can return satisfies `after` of its whole path. -/
def Ensures (before : List (Exchange Action Reply) → Action → Prop)
    (after : List (Exchange Action Reply) → Result → Prop) :
    List (Exchange Action Reply) → Program Action Reply Result → Prop
  | path, .done value => after path value
  | path, .perform request next =>
    before path request ∧ ∀ answer, Ensures before after (⟨request, answer⟩ :: path) (next answer)

section Ensures

variable {before : List (Exchange Action Reply) → Action → Prop}
  {after : List (Exchange Action Reply) → Result → Prop}

@[simp]
theorem ensures_done {path : List (Exchange Action Reply)} {value : Result} :
    Ensures before after path (.done value) ↔ after path value :=
  Iff.rfl

@[simp]
theorem ensures_perform {path : List (Exchange Action Reply)} {request : Action}
    {next : Reply request → Program Action Reply Result} :
    Ensures before after path (.perform request next) ↔ before path request ∧
        ∀ answer, Ensures before after (⟨request, answer⟩ :: path) (next answer) :=
  Iff.rfl

variable {program : Program Action Reply Result}

theorem ensures_bind {after : List (Exchange Action Reply) → Later → Prop}
    {continuation : Result → Program Action Reply Later} :
    ∀ {path : List (Exchange Action Reply)},
      Ensures before after path (program >>= continuation) ↔ Ensures before
          (fun reached value => Ensures before after reached (continuation value))
          path program := by
  induction program with
  | done =>
    intro path
    rfl
  | perform _ _ ih =>
    intro path
    rw [perform_bind, ensures_perform, ensures_perform]
    constructor
    · rintro ⟨asked, rest⟩
      exact ⟨asked, fun answer => (ih answer).mp (rest answer)⟩
    · rintro ⟨asked, rest⟩
      exact ⟨asked, fun answer => (ih answer).mpr (rest answer)⟩

theorem Ensures.weaken {strong weak : List (Exchange Action Reply) → Result → Prop} :
    ∀ {path : List (Exchange Action Reply)},
      Ensures before strong path program →
        (∀ reached value, strong reached value → weak reached value) →
          Ensures before weak path program := by
  induction program with
  | done value =>
    intro path ensured implies
    exact implies path value ensured
  | perform _ _ ih =>
    rintro path ⟨asked, rest⟩ implies
    exact ⟨asked, fun answer => ih answer (rest answer) implies⟩

variable {other : List (Exchange Action Reply) → Action → Prop}

theorem Ensures.mono :
    ∀ {path : List (Exchange Action Reply)},
      Ensures before after path program →
        (∀ reached request, before reached request → other reached request) →
          Ensures other after path program := by
  induction program with
  | done =>
    intro path ensured implies
    exact ensured
  | perform request _ ih =>
    rintro path ⟨asked, rest⟩ implies
    exact ⟨implies path request asked, fun answer => ih answer (rest answer) implies⟩

theorem Ensures.and
    {left right : List (Exchange Action Reply) → Result → Prop} :
    ∀ {path : List (Exchange Action Reply)},
      Ensures before left path program → Ensures other right path program →
        Ensures (fun reached request => before reached request ∧ other reached request)
          (fun reached value => left reached value ∧ right reached value)
          path program := by
  induction program with
  | done =>
    intro path first second
    exact ⟨first, second⟩
  | perform _ _ ih =>
    intro path first second
    exact ⟨⟨first.1, second.1⟩, fun answer => ih answer (first.2 answer) (second.2 answer)⟩

end Ensures

/-! ## Programs that can fail -/

section Failing

variable {Failure : Type} {before : List (Exchange Action Reply) → Action → Prop}

theorem ensures_exceptBind {after : List (Exchange Action Reply) → Except Failure Later → Prop}
    {program : ExceptT Failure (Program Action Reply) Result}
    {continuation : Result → ExceptT Failure (Program Action Reply) Later}
    {path : List (Exchange Action Reply)} :
    Ensures before after path (program >>= continuation).run ↔ Ensures before
        (fun reached outcome =>
          match outcome with
          | .ok value => Ensures before after reached (continuation value).run
          | .error problem => after reached (.error problem))
        path program.run := by
  have unfolded : (program >>= continuation).run = (program.run >>= fun outcome =>
      match outcome with
      | .ok value => (continuation value).run
      | .error problem => Program.done (.error problem)) := by
    rw [ExceptT.run_bind]
    congr 1
    funext outcome
    cases outcome with
    | ok => rfl
    | error => rfl
  rw [unfolded, ensures_bind]
  constructor
  · intro ensured
    refine ensured.weaken fun reached outcome held => ?_
    cases outcome with
    | ok => exact held
    | error => exact held
  · intro ensured
    refine ensured.weaken fun reached outcome held => ?_
    cases outcome with
    | ok => exact held
    | error => exact held

end Failing

section Results

variable {Failure : Type}

theorem ensures_extends (program : Program Action Reply Result) :
    ∀ path : List (Exchange Action Reply),
      Ensures (fun _ _ => True) (fun reached _ => path <:+ reached) path program := by
  induction program with
  | done =>
    intro path
    exact List.suffix_rfl
  | perform _ _ ih =>
    intro path
    refine ⟨trivial, fun answer => ?_⟩
    refine (ih answer _).weaken fun reached _ longer => ?_
    exact (List.suffix_cons _ path).trans longer

variable {path : List (Exchange Action Reply)}

/-- To run a program whose results do not matter, go on from every longer
path. -/
theorem ensures_of_extends {after : List (Exchange Action Reply) → Result → Prop}
    {program : Program Action Reply Result}
    (onward : ∀ reached value, path <:+ reached → after reached value) :
    Ensures (fun _ _ => True) after path program :=
  (ensures_extends program path).weaken onward

theorem ensures_map {before : List (Exchange Action Reply) → Action → Prop}
    {after : List (Exchange Action Reply) → Except Failure Later → Prop}
    {program : ExceptT Failure (Program Action Reply) Result} {convert : Result → Later}
    (ensured :
      Ensures before (fun reached outcome => after reached (outcome.map convert))
        path program.run) :
    Ensures before after path (convert <$> program).run := by
  refine ensures_bind.mpr (ensured.weaken fun reached outcome held => ?_)
  cases outcome with
  | ok => exact held
  | error => exact held

end Results

/-! ## Requests everywhere in a program -/

/-- A fact about paths that later exchanges do not undo. -/
def Grows (known : List (Exchange Action Reply) → Prop) : Prop :=
  ∀ path exchange, known path → known (exchange :: path)

/-- `Guided known before program`: started on a path where `known` holds, the
program only makes requests that satisfy `before`. -/
def Guided (known : List (Exchange Action Reply) → Prop)
    (before : List (Exchange Action Reply) → Action → Prop)
    (program : Program Action Reply Result) : Prop :=
  ∀ path, known path → Ensures before (fun reached _ => known reached) path program

section Guided

variable {known : List (Exchange Action Reply) → Prop}
  {before : List (Exchange Action Reply) → Action → Prop} {Failure : Type}
  {program : Program Action Reply Result}

theorem Guided.ensures {path : List (Exchange Action Reply)} (start : known path)
    (guided : Guided known before program) :
    Ensures before (fun _ _ => True) path program :=
  (guided path start).weaken fun _ _ _ => trivial

theorem guided_done (value : Result) :
    Guided known before (Program.done value : Program Action Reply Result) :=
  fun _ start => start

theorem guided_ask (grows : Grows known) {request : Action}
    (asked : ∀ path, known path → before path request) :
    Guided known before (ask request : Program Action Reply (Reply request)) :=
  fun path start => ⟨asked path start, fun _ => grows path _ start⟩

theorem guided_bind
    {continuation : Result → Program Action Reply Later} (first : Guided known before program)
    (later : ∀ value, Guided known before (continuation value)) :
    Guided known before (program >>= continuation) := by
  intro path start
  rw [ensures_bind]
  exact (first path start).weaken fun reached value held => later value reached held

theorem guided_pure (value : Result) : Guided known before
    (pure value : ExceptT Failure (Program Action Reply) Result).run :=
  guided_done _

theorem guided_throw (problem : Failure) : Guided known before
    (throw problem : ExceptT Failure (Program Action Reply) Result).run :=
  guided_done _

variable {program : ExceptT Failure (Program Action Reply) Result}

theorem guided_exceptBind {continuation : Result → ExceptT Failure (Program Action Reply) Later}
    (first : Guided known before program.run)
    (later : ∀ value, Guided known before (continuation value).run) :
    Guided known before (program >>= continuation).run := by
  intro path start
  rw [ensures_exceptBind]
  refine (first path start).weaken fun reached outcome held => ?_
  cases outcome with
  | ok value => exact later value reached held
  | error => exact held

theorem guided_map {convert : Result → Later} (first : Guided known before program.run) :
    Guided known before (convert <$> program).run := by
  refine guided_bind first fun outcome => ?_
  cases outcome with
  | ok => exact guided_done _
  | error => exact guided_done _

theorem guided_tryCatch {handler : Failure → ExceptT Failure (Program Action Reply) Result}
    (first : Guided known before program.run)
    (handled : ∀ problem, Guided known before (handler problem).run) :
    Guided known before (tryCatch program handler).run := by
  refine guided_bind first fun outcome => ?_
  cases outcome with
  | ok => exact guided_done _
  | error problem => exact handled problem

/-- A fact about paths that the program's own requests do not undo holds at each
of them. -/
theorem guided_carry {held : List (Exchange Action Reply) → Prop}
    (kept :
      ∀ path request answer, before path request → held path → held (⟨request, answer⟩ :: path))
    (guided : Guided (fun _ => True) before program) :
    Guided held (fun path request => before path request ∧ held path) program := by
  intro path start
  have ensured := guided path trivial
  clear guided
  induction program generalizing path with
  | done => exact start
  | perform request _ ih =>
    exact ⟨⟨ensured.1, start⟩, fun answer =>
      ih answer _ (kept path request answer ensured.1 start) (ensured.2 answer)⟩

end Guided

/-- Every request the program can make is an allowed one. -/
def Asks (allowed : Action → Prop) : Program Action Reply Result → Prop
  | .done _ => True
  | .perform request next => allowed request ∧ ∀ answer, Asks allowed (next answer)

section Asks

variable {allowed : Action → Prop}

theorem asks_done (value : Result) :
    Asks allowed (Program.done value : Program Action Reply Result) :=
  trivial

theorem asks_ask {request : Action} (asked : allowed request) :
    Asks allowed (ask request : Program Action Reply (Reply request)) :=
  ⟨asked, fun _ => trivial⟩

variable {program : Program Action Reply Result}

theorem asks_bind {continuation : Result → Program Action Reply Later}
    (first : Asks allowed program) (later : ∀ value, Asks allowed (continuation value)) :
    Asks allowed (program >>= continuation) := by
  induction program with
  | done value => exact later value
  | perform _ _ ih => exact ⟨first.1, fun answer => ih answer (first.2 answer)⟩

theorem asks_exceptBind {Failure : Type} {program : ExceptT Failure (Program Action Reply) Result}
    {continuation : Result → ExceptT Failure (Program Action Reply) Later}
    (first : Asks allowed program.run) (later : ∀ value, Asks allowed (continuation value).run) :
    Asks allowed (program >>= continuation).run := by
  rw [ExceptT.run_bind]
  refine asks_bind first fun outcome => ?_
  cases outcome with
  | ok value => exact later value
  | error => exact asks_done _

theorem Asks.mono {more : Action → Prop} (asks : Asks allowed program)
    (implies : ∀ request, allowed request → more request) :
    Asks more program := by
  induction program with
  | done => exact trivial
  | perform request _ ih =>
    exact ⟨implies request asks.1, fun answer => ih answer (asks.2 answer)⟩

theorem Asks.ensures (asks : Asks allowed program) :
    ∀ path, Ensures (fun _ request => allowed request) (fun _ _ => True) path program := by
  induction program with
  | done => exact fun _ => trivial
  | perform _ _ ih => exact fun path => ⟨asks.1, fun answer => ih answer (asks.2 answer) _⟩

theorem Asks.guided {held : List (Exchange Action Reply) → Prop}
    {before : List (Exchange Action Reply) → Action → Prop} (asks : Asks allowed program)
    (kept : ∀ path request answer, allowed request → held path → held (⟨request, answer⟩ :: path))
    (implies : ∀ path request, allowed request → held path → before path request) :
    Guided held before program := by
  intro path start
  induction program generalizing path with
  | done => exact start
  | perform request _ ih =>
    exact ⟨implies path request asks.1 start, fun answer =>
      ih answer (asks.2 answer) _ (kept path request answer asks.1 start)⟩

end Asks

end Program

end Foundation
end CanglingBroker
