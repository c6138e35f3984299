import CanglingBroker.Foundation.Program

/-!
# Pre- and postconditions of programs

`Triple before pre program post` says that the program, started on a path that satisfies
`pre`, only makes requests `before` allows and, when it returns a value, has walked a path
that satisfies `post` of it.
-/

namespace CanglingBroker
namespace Foundation
namespace Program

variable {Action : Type} {Reply : Action → Type} {Result Later Failure : Type}

/-- The program meets its pre- and postcondition. -/
def Triple (before : List (Exchange Action Reply) → Action → Prop)
    (pre : List (Exchange Action Reply) → Prop)
    (program : Program Action Reply Result)
    (post : Result → List (Exchange Action Reply) → Prop) : Prop :=
  ∀ path, pre path → Ensures before (fun reached value => post value reached) path program

/-- The postcondition of a program that can fail. -/
def Ends (fails : Failure → List (Exchange Action Reply) → Prop)
    (post : Result → List (Exchange Action Reply) → Prop) :
    Except Failure Result → List (Exchange Action Reply) → Prop
  | .ok value => post value
  | .error problem => fails problem

section Rules

variable {before : List (Exchange Action Reply) → Action → Prop}
  {pre : List (Exchange Action Reply) → Prop}

theorem triple_done {post : Result → List (Exchange Action Reply) → Prop} (value : Result)
    (holds : ∀ path, pre path → post value path) :
    Triple before pre (.done value) post :=
  holds

theorem triple_ask {request : Action} {post : Reply request → List (Exchange Action Reply) → Prop}
    (asked : ∀ path, pre path → before path request)
    (answered : ∀ path answer, pre path → post answer (⟨request, answer⟩ :: path)) :
    Triple before pre (ask request) post :=
  fun path start => ⟨asked path start, fun answer => answered path answer start⟩

variable {post : Later → List (Exchange Action Reply) → Prop}
  {middle : Result → List (Exchange Action Reply) → Prop} {program : Program Action Reply Result}

theorem triple_bind {continuation : Result → Program Action Reply Later}
    (first : Triple before pre program middle)
    (later : ∀ value, Triple before (middle value) (continuation value) post) :
    Triple before pre (program >>= continuation) post := by
  intro path start
  rw [ensures_bind]
  exact (first path start).weaken fun reached value held => later value reached held

theorem Triple.consequence {stronger : List (Exchange Action Reply) → Prop}
    {post weaker : Result → List (Exchange Action Reply) → Prop}
    (triple : Triple before pre program post)
    (strengthen : ∀ path, stronger path → pre path)
    (weaken : ∀ value path, post value path → weaker value path) :
    Triple before stronger program weaker :=
  fun path start =>
    (triple path (strengthen path start)).weaken fun reached value => weaken value reached

variable {fails : Failure → List (Exchange Action Reply) → Prop}
  {program : ExceptT Failure (Program Action Reply) Result}

theorem triple_exceptBind {continuation : Result → ExceptT Failure (Program Action Reply) Later}
    (first : Triple before pre program.run (Ends fails middle))
    (later : ∀ value, Triple before (middle value) (continuation value).run (Ends fails post)) :
    Triple before pre (program >>= continuation).run (Ends fails post) := by
  intro path start
  rw [ensures_exceptBind]
  refine (first path start).weaken fun reached outcome held => ?_
  cases outcome with
  | ok value => exact later value reached held
  | error => exact held

theorem triple_map {convert : Result → Later}
    (triple : Triple before pre program.run (Ends fails fun value => post (convert value))) :
    Triple before pre (convert <$> program).run (Ends fails post) := by
  intro path start
  refine ensures_map ((triple path start).weaken fun reached outcome held => ?_)
  cases outcome with
  | ok => exact held
  | error => exact held

end Rules

end Program
end Foundation
end CanglingBroker
