import Mathlib

/-!
# Runs of a partial step function

A component is a state, a set of events that carry every choice the component does not
make itself, and a partial function that says what one event does.  The rules below turn
facts about one step into facts about every run.
-/

namespace CanglingBroker
namespace Foundation

universe u v

variable {state : Type u} {event : Type v}

/-- Replay a list of events, oldest first.  The replay is undefined as soon as
one of them is not enabled. -/
def run (step : state → event → Option state) :
    state → List event → Option state
  | current, [] => some current
  | current, next :: later =>
    match step current next with
    | none => none
    | some reached => run step reached later

/-- What a computation ends in can be checked by carrying it out. -/
theorem exists_some_of_check {found : Option state} {meets : state → Prop}
    [DecidablePred meets] (checked : (found.any fun final => decide (meets final)) = true) :
    ∃ final, found = some final ∧ meets final := by
  obtain ⟨final, same, holds⟩ := (Option.any_eq_true _ _).mp checked
  exact ⟨final, same, of_decide_eq_true holds⟩

theorem exists_run_of_check {reached : Type*} {found : Option state}
    {next : state → Option reached} {meets : state → reached → Prop}
    [∀ initial final, Decidable (meets initial final)]
    (checked :
      (found.any fun initial =>
        (next initial).any fun final => decide (meets initial final)) = true) :
    ∃ initial final, found = some initial ∧ next initial = some final ∧ meets initial final := by
  obtain ⟨initial, same, ended⟩ := (Option.any_eq_true _ _).mp checked
  obtain ⟨final, ran, holds⟩ := exists_some_of_check ended
  exact ⟨initial, final, same, ran, holds⟩

/-- `Along step meets start events`: each event of the replay meets the
condition in the state it is taken in. -/
def Along (step : state → event → Option state)
    (meets : state → event → Prop) : state → List event → Prop
  | _, [] => True
  | current, next :: later =>
    meets current next ∧
      ∀ reached, step current next = some reached → Along step meets reached later

/-- `Throughout step holds start events`: the property holds in every state the
replay visits, the first and the last included. -/
def Throughout (step : state → event → Option state)
    (holds : state → Prop) : state → List event → Prop
  | current, [] => holds current
  | current, next :: later =>
    holds current ∧
      ∀ reached, step current next = some reached → Throughout step holds reached later

section Rules

variable {step : state → event → Option state}

@[simp]
theorem run_nil (current : state) : run step current [] = some current :=
  rfl

theorem run_cons_eq_some {current final : state} {next : event} {later : List event} :
    run step current (next :: later) = some final ↔ ∃ reached,
        step current next = some reached ∧ run step reached later = some final := by
  rw [run]
  cases stepped : step current next with
  | none => simp
  | some => simp

theorem run_append_eq_some {current final : state} {earlier later : List event} :
    run step current (earlier ++ later) = some final ↔ ∃ middle,
        run step current earlier = some middle ∧ run step middle later = some final := by
  induction earlier generalizing current with
  | nil => simp
  | cons _ _ ih =>
    simp only [List.cons_append, run_cons_eq_some, ih]
    constructor
    · rintro ⟨reached, stepped, middle, front, back⟩
      exact ⟨middle, ⟨reached, stepped, front⟩, back⟩
    · rintro ⟨middle, ⟨reached, stepped, front⟩, back⟩
      exact ⟨reached, stepped, middle, front, back⟩

variable {holds : state → Prop} {meets : state → event → Prop}

theorem run_invariant_along
    (preserved :
      ∀ {current reached : state} {next : event},
        holds current → meets current next → step current next = some reached → holds reached) :
    ∀ {events : List event} {start final : state},
      holds start → Along step meets start events → run step start events = some final → holds final
  | [], start, final, initially, _, ran => by
    rw [run_nil, Option.some.injEq] at ran
    exact ran ▸ initially
  | next :: later, start, final, initially, along, ran => by
    obtain ⟨reached, stepped, rest⟩ := run_cons_eq_some.mp ran
    exact run_invariant_along preserved
      (preserved initially along.1 stepped)
      (along.2 reached stepped) rest

/-- What all events of a run have can be added to the condition its steps
meet. -/
theorem Along.and_of_mem {good : event → Prop} :
    ∀ {events : List event} {start : state},
      Along step meets start events → (∀ next ∈ events, good next) →
        Along step (fun current next => meets current next ∧ good next) start events
  | [], _, _, _ => trivial
  | next :: _, _, along, allGood =>
    ⟨⟨along.1, allGood next (.head _)⟩, fun reached stepped =>
      (along.2 reached stepped).and_of_mem fun other member =>
        allGood other (List.mem_cons_of_mem next member)⟩

theorem along_of_mem {good : event → Prop} : ∀ {events : List event} {start : state},
    (∀ next ∈ events, good next) → Along step (fun _ next => good next) start events
  | [], _, _ => trivial
  | next :: _, _, allGood =>
    ⟨allGood next (.head _), fun _ _ =>
      along_of_mem fun other member => allGood other (List.mem_cons_of_mem next member)⟩

theorem run_invariant
    (preserved :
      ∀ {current reached : state} {next : event},
        holds current → step current next = some reached → holds reached)
    {events : List event} {start final : state} (initially : holds start)
    (ran : run step start events = some final) : holds final :=
  run_invariant_along (fun held _ => preserved held) initially
    (along_of_mem fun _ _ => trivial : Along step (fun _ _ => True) start events) ran

def guarded (guard : state → event → Bool) (step : state → event → Option state)
    (current : state) (next : event) : Option state :=
  if guard current next then step current next else none

theorem run_guarded {guard : state → event → Bool} : ∀ {events : List event} {start final : state},
    run (guarded guard step) start events = some final → run step start events = some final ∧
        Along step (fun current next => guard current next = true) start events
  | [], _, _, ran => ⟨ran, trivial⟩
  | next :: later, start, final, ran => by
    obtain ⟨reached, stepped, rest⟩ := run_cons_eq_some.mp ran
    unfold guarded at stepped
    split at stepped
    · next met =>
      obtain ⟨plain, along⟩ := run_guarded rest
      refine ⟨run_cons_eq_some.mpr ⟨reached, stepped, plain⟩, met, fun other also => ?_⟩
      cases stepped.symm.trans also
      exact along
    · cases stepped

theorem along_forall_iff {index : Type} {meets : index → state → event → Prop} :
    ∀ {events : List event} {start : state},
      (∀ i, Along step (meets i) start events) ↔
        Along step (fun current next => ∀ i, meets i current next) start events
  | [], _ => ⟨fun _ => trivial, fun _ _ => trivial⟩
  | _ :: _, _ => by
    constructor
    · intro each
      refine ⟨fun i => (each i).1, fun reached stepped => ?_⟩
      exact along_forall_iff.mp fun i => (each i).2 reached stepped
    · intro all i
      refine ⟨all.1 i, fun reached stepped => ?_⟩
      exact along_forall_iff.mpr (all.2 reached stepped) i

/-- Test each event of a replay in the state it is taken in. -/
def checkAlong (step : state → event → Option state)
    (check : state → event → Bool) : state → List event → Bool
  | _, [] => true
  | current, next :: later =>
    check current next &&
      match step current next with
      | none => true
      | some reached => checkAlong step check reached later

variable {check : state → event → Bool}

/-- A replay whose tests all succeed meets what the tests test for, given what
holds in every state of it. -/
theorem along_of_check_of_invariant
    (preserved :
      ∀ {current reached : state} {next : event},
        holds current → step current next = some reached → holds reached)
    (sound : ∀ current next, holds current → check current next = true → meets current next) :
    ∀ {events : List event} {start : state},
      holds start → checkAlong step check start events = true → Along step meets start events
  | [], _, _, _ => trivial
  | next :: later, start, initially, checked => by
    rw [checkAlong, Bool.and_eq_true] at checked
    refine ⟨sound start next initially checked.1, fun reached stepped => ?_⟩
    have rest := checked.2
    rw [stepped] at rest
    exact along_of_check_of_invariant preserved sound (preserved initially stepped) rest

theorem along_of_check
    (sound : ∀ current next, check current next = true → meets current next) {events : List event}
    {start : state} (checked : checkAlong step check start events = true) :
    Along step meets start events :=
  along_of_check_of_invariant (fun _ _ => trivial)
    (fun current next _ => sound current next) trivial checked

/-- When a step keeps a property exactly under a condition, the property holds
in every state of a run exactly when each step of the run meets the
condition. -/
theorem throughout_iff_along
    (exact_step :
      ∀ {current reached : state} {next : event},
        holds current → step current next = some reached → (holds reached ↔ meets current next)) :
    ∀ {events : List event} {start final : state},
      holds start → run step start events = some final →
        (Throughout step holds start events ↔ Along step meets start events)
  | [], start, final, initially, _ => by
    simp [Throughout, Along, initially]
  | next :: later, start, final, initially, ran => by
    obtain ⟨reached, stepped, rest⟩ := run_cons_eq_some.mp ran
    have unique : ∀ other, step start next = some other → other = reached := by
      intro other same
      rw [stepped, Option.some.injEq] at same
      exact same.symm
    constructor
    · rintro ⟨_, onward⟩
      have laterHolds := onward reached stepped
      have reachedHolds : holds reached := by
        cases later with
        | nil => exact laterHolds
        | cons => exact laterHolds.1
      refine ⟨(exact_step initially stepped).mp reachedHolds, ?_⟩
      intro other same
      rw [unique other same]
      exact (throughout_iff_along exact_step reachedHolds rest).mp laterHolds
    · rintro ⟨met, onward⟩
      have reachedHolds := (exact_step initially stepped).mpr met
      refine ⟨initially, ?_⟩
      intro other same
      rw [unique other same]
      exact (throughout_iff_along exact_step reachedHolds rest).mpr (onward reached stepped)

/-- What every step keeps can be added to what holds throughout a run. -/
theorem throughout_and_iff {invariant holds : state → Prop}
    (preserved :
      ∀ {current reached : state} {next : event},
        invariant current → step current next = some reached → invariant reached) :
    ∀ {events : List event} {start : state},
      invariant start →
        (Throughout step (fun current => invariant current ∧ holds current) start events ↔
          Throughout step holds start events)
  | [], _, initially => ⟨And.right, fun held => ⟨initially, held⟩⟩
  | next :: later, start, initially => by
    have onward : ∀ reached, step start next = some reached →
        (Throughout step (fun current => invariant current ∧ holds current) reached later ↔
          Throughout step holds reached later) :=
      fun reached stepped => throughout_and_iff preserved (preserved initially stepped)
    constructor
    · rintro ⟨⟨_, held⟩, rest⟩
      exact ⟨held, fun reached stepped => (onward reached stepped).mp (rest reached stepped)⟩
    · rintro ⟨held, rest⟩
      exact ⟨⟨initially, held⟩, fun reached stepped =>
        (onward reached stepped).mpr (rest reached stepped)⟩

end Rules

end Foundation
end CanglingBroker
