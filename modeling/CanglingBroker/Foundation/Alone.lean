import CanglingBroker.Foundation.Program

/-!
# Programs on their own

`respond` says how a request may be answered in a state and which state that leaves.
`Ran respond program state value final` says that the program, started in a state and
answered in this way at every request, can return the value and leave the final state.
A program whose requests can always be answered returns (`exists_ran`), and where the
answers can be computed it can be carried out (`drive`).
-/

namespace CanglingBroker
namespace Foundation
namespace Program

variable {Action State : Type} {Reply : Action → Type} {Result Later Failure : Type}
  {respond : State → (request : Action) → Reply request → State → Prop} {final : State}

/-- The program can return the value and leave the final state. -/
def Ran (respond : State → (request : Action) → Reply request → State → Prop) :
    Program Action Reply Result → State → Result → State → Prop
  | .done value, state, result, final => result = value ∧ final = state
  | .perform request next, state, result, final =>
    ∃ answer reached,
      respond state request answer reached ∧ Ran respond (next answer) reached result final

@[simp]
theorem ran_ask {request : Action} {answer : Reply request} {state : State} :
    Ran respond (ask request) state answer final ↔ respond state request answer final := by
  constructor
  · rintro ⟨given, reached, responded, rfl, rfl⟩
    exact responded
  · intro responded
    exact ⟨answer, final, responded, rfl, rfl⟩

variable {program : Program Action Reply Result}

theorem ran_bind {continuation : Result → Program Action Reply Later} {result : Later} :
    ∀ {state : State},
      Ran respond (program >>= continuation) state result final ↔ ∃ value middle,
          Ran respond program state value middle ∧
            Ran respond (continuation value) middle result final := by
  induction program with
  | done value =>
    intro state
    constructor
    · intro ran
      exact ⟨value, state, ⟨rfl, rfl⟩, ran⟩
    · rintro ⟨_, _, ⟨rfl, rfl⟩, ran⟩
      exact ran
  | perform _ _ ih =>
    intro state
    constructor
    · rintro ⟨answer, reached, responded, ran⟩
      obtain ⟨value, middle, first, later⟩ := (ih answer).mp ran
      exact ⟨value, middle, ⟨answer, reached, responded, first⟩, later⟩
    · rintro ⟨value, middle, ⟨answer, reached, responded, first⟩, later⟩
      exact ⟨answer, reached, responded, (ih answer).mpr ⟨value, middle, first, later⟩⟩

theorem exists_ran {holds : State → Prop}
    (responds :
      ∀ state request, holds state →
        ∃ answer reached, respond state request answer reached ∧ holds reached)
    (program : Program Action Reply Result) :
    ∀ state, holds state → ∃ value final, Ran respond program state value final ∧ holds final := by
  induction program with
  | done value => exact fun state held => ⟨value, state, ⟨rfl, rfl⟩, held⟩
  | perform request _ ih =>
    intro state held
    obtain ⟨answer, reached, responded, stillHeld⟩ := responds state request held
    obtain ⟨value, final, ran, atEnd⟩ := ih answer reached stillHeld
    exact ⟨value, final, ⟨answer, reached, responded, ran⟩, atEnd⟩

theorem Ran.keeps {allowed : Action → Prop} {holds : State → Prop}
    (kept :
      ∀ {state request answer reached}, allowed request →
        respond state request answer reached → holds state → holds reached)
    (asks : Asks allowed program) :
    ∀ {state value final}, Ran respond program state value final → holds state → holds final := by
  induction program with
  | done =>
    rintro state _ _ ⟨rfl, rfl⟩ held
    exact held
  | perform _ _ ih =>
    rintro state value final ⟨answer, reached, responded, ran⟩ held
    exact ih answer (asks.2 answer) ran (kept asks.1 responded held)

/-- Carry the program out, with the choices a scheduler makes. -/
def drive {Choice : Type}
    (perform : Choice → State → (request : Action) → Option (Reply request × State)) :
    List Choice → Program Action Reply Result → State → Option (Result × State)
  | _, .done value, state => some (value, state)
  | [], .perform _ _, _ => none
  | choice :: rest, .perform request next, state =>
    (perform choice state request).bind fun reached =>
      drive perform rest (next reached.1) reached.2

theorem ran_of_drive {Choice : Type}
    {perform : Choice → State → (request : Action) → Option (Reply request × State)} (responds :
      ∀ choice state request answer after,
        perform choice state request = some (answer, after) → respond state request answer after)
    {value : Result} :
    ∀ {choices : List Choice} {program : Program Action Reply Result} {state : State},
      drive perform choices program state = some (value, final) →
        Ran respond program state value final
  | choices, .done _, _, driven => by
    cases choices <;> cases driven <;> exact ⟨rfl, rfl⟩
  | [], .perform _ _, _, driven => by cases driven
  | choice :: _, .perform request _, state, driven => by
    obtain ⟨⟨answer, reached⟩, performed, later⟩ := Option.bind_eq_some_iff.mp driven
    exact ⟨answer, reached, responds choice state request answer reached performed,
      ran_of_drive responds later⟩

/-! ## Programs that can fail -/

section Failing

variable {program : ExceptT Failure (Program Action Reply) Result} {state final : State}

theorem ran_exceptBind {continuation : Result → ExceptT Failure (Program Action Reply) Later}
    {outcome : Except Failure Later} :
    Ran respond (program >>= continuation).run state outcome final ↔ (∃ value middle,
        Ran respond program.run state (.ok value) middle ∧
          Ran respond (continuation value).run middle outcome final) ∨
        ∃ problem,
          Ran respond program.run state (.error problem) final ∧ outcome = .error problem := by
  rw [ExceptT.run_bind, ran_bind]
  constructor
  · rintro ⟨first, middle, ran, later⟩
    cases first with
    | ok value => exact .inl ⟨value, middle, ran, later⟩
    | error problem =>
      obtain ⟨rfl, rfl⟩ := later
      exact .inr ⟨problem, ran, rfl⟩
  · rintro (⟨value, middle, ran, later⟩ | ⟨problem, ran, rfl⟩)
    · exact ⟨.ok value, middle, ran, later⟩
    · exact ⟨.error problem, final, ran, rfl, rfl⟩

theorem ran_exceptBind_ok {continuation : Result → ExceptT Failure (Program Action Reply) Later}
    {result : Later} :
    Ran respond (program >>= continuation).run state (.ok result) final ↔ ∃ value middle,
        Ran respond program.run state (.ok value) middle ∧
          Ran respond (continuation value).run middle (.ok result) final := by
  rw [ran_exceptBind]
  refine or_iff_left ?_
  rintro ⟨_, _, ⟨⟩⟩

theorem ran_map {convert : Result → Later} {outcome : Except Failure Later} :
    Ran respond (convert <$> program).run state outcome final ↔
      ∃ first, Ran respond program.run state first final ∧ outcome = first.map convert := by
  constructor
  · intro ran
    obtain ⟨first, middle, before, later⟩ := ran_bind.mp ran
    refine ⟨first, ?_⟩
    cases first with
    | ok | error =>
      obtain ⟨rfl, rfl⟩ := later
      exact ⟨before, rfl⟩
  · rintro ⟨first, ran, rfl⟩
    refine ran_bind.mpr ⟨first, final, ran, ?_⟩
    cases first with
    | ok | error => exact ⟨rfl, rfl⟩

end Failing

end Program
end Foundation
end CanglingBroker
