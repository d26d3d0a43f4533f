/-
Module: Relational.Goal.Plan
Purpose: Plans: goals whose terms have been built.
Main exports: Closure, Plan, Goal.build, Closure.build
-/
import Relational.Goal.Basic

namespace Relational

/-!
A goal describes its terms, a plan holds them.  Building a goal builds the terms of its equations
and puts the body of a relation in the place of a call.  This happens once for all branches that the
plan is applied to, so whatever the plan gives to different branches is the same.

Some bodies are not built with the goal.  The body of a new variable is built when the variable is
known and the body of a suspension when it is resumed, so what they build belongs to one branch.
The endless goals are suspensions of this kind: each is resumed as a goal that holds it again.

An allowance bounds how deep calls may be nested in what is built at once.  A call beyond it is
suspended, which changes when its answers appear and not what they are.  Where every cycle of calls
introduces a variable or passes through a suspension, calls are nested at most once for every
relation, so the allowance is not used up.
-/

/-- A goal that is still to be built, in the scope of its names and at the given place. -/
structure Closure where
  goal : Goal
  scope : Scope
  place : Place
deriving Repr

namespace Closure

/-- The body of a suspension as it is built on the branch with the given choices. -/
def onBranch (body : Closure) (choices : List Nat) : Closure :=
  { body with place := .visit body.place choices }

/-- The body of a new variable as it is built on the branch with the given choices. -/
def withVar (body : Closure) (name : String) (x : Var) (choices : List Nat) : Closure :=
  ⟨body.goal, (name, .var x) :: body.scope, .visit body.place choices⟩

end Closure

/-- A goal whose terms have been built. -/
inductive Plan where
  /-- Holds at once. -/
  | succeed
  /-- Never holds. -/
  | fail
  /-- The two terms are equal. -/
  | eq (left right : Term)
  /-- One of the two holds. -/
  | disj (left right : Plan)
  /-- Both hold. -/
  | conj (first second : Plan)
  /-- The body holds for a new variable of that name. -/
  | fresh (name : String) (body : Closure)
  /-- The same as the body, searched only on demand. -/
  | suspend (body : Closure)
  /-- Holds the given number of times. -/
  | times (count : Nat)
deriving Repr

namespace Plan

/-- What stands to the left of the part of a plan that is being built. -/
inductive Outer where
  | disj (left : Plan)
  | conj (first : Plan)
deriving Repr

/-- Joins a part to what stands to its left. -/
def Outer.close (inner : Plan) : Outer → Plan
  | .disj left => .disj left inner
  | .conj first => .conj first inner

/-- Joins a part to all that stands to its left, the nearest first. -/
def close (outer : List Outer) (inner : Plan) : Plan :=
  outer.foldl Outer.close inner

@[simp] theorem close_nil (inner : Plan) : close [] inner = inner := rfl

@[simp] theorem close_cons (nearest : Outer) (outer : List Outer) (inner : Plan) :
    close (nearest :: outer) inner = close outer (nearest.close inner) := rfl

end Plan

namespace Program

/-- The relation of a name. -/
def find? (program : Program) (name : String) : Option Relation :=
  program.lookup name

/-- How deep calls may be nested in what is built at once. -/
def allowance (program : Program) : Nat := program.length

end Program

/-- The body of a relation in the scope of its parameters, which stand for the given terms.  Where
two parameters have one name, the later one counts. -/
def Relation.closure (relation : Relation) (arguments : List Term) (place : Place) : Closure :=
  ⟨relation.body, (relation.parameters.zip arguments).reverse, place⟩

namespace Goal

/-- The terms of an argument list. -/
def buildArguments (scope : Scope) (place : Place) (arguments : List Expr) : List Term :=
  arguments.mapIdx fun index argument => argument.build scope (.part index place)

/-- Builds the part of a goal that stands to the right of `outer`, in a loop along the last parts of
disjunctions and conjunctions.  `call` says how the body of a relation is built. -/
def buildOnto (program : Program) (call : Closure → Plan) (scope : Scope) :
    Goal → Place → List Plan.Outer → Plan
  | .succeed, _, outer => .close outer .succeed
  | .fail, _, outer => .close outer .fail
  | .never, place, outer => .close outer (.suspend ⟨.never, [], place⟩)
  | .always, place, outer => .close outer (.suspend ⟨.disj .succeed .always, [], place⟩)
  | .eq left right, place, outer =>
    .close outer (.eq (left.build scope (.part 0 place)) (right.build scope (.part 1 place)))
  | .disj left right, place, outer =>
    right.buildOnto program call scope (.part 1 place)
      (.disj (left.buildOnto program call scope (.part 0 place) []) :: outer)
  | .conj first second, place, outer =>
    second.buildOnto program call scope (.part 1 place)
      (.conj (first.buildOnto program call scope (.part 0 place) []) :: outer)
  | .fresh name body, place, outer => .close outer (.fresh name ⟨body, scope, place⟩)
  | .suspend body, place, outer => .close outer (.suspend ⟨body, scope, place⟩)
  | .call name arguments, place, outer =>
    .close outer ((program.find? name).elim .fail fun relation =>
      call (relation.closure (buildArguments scope (.part 0 place) arguments) (.part 1 place)))
  | .times count, _, outer => .close outer (.times count)

/-- Builds a goal; calls may be nested `allowance` deep before one is suspended. -/
def buildWithin (program : Program) : Nat → Goal → Scope → Place → Plan
  | 0, goal, scope, place => goal.buildOnto program .suspend scope place []
  | allowance + 1, goal, scope, place =>
    goal.buildOnto program
      (fun body => body.goal.buildWithin program allowance body.scope body.place) scope place []

/-- The plan of a goal in a scope, built at the given place. -/
def build (program : Program) (goal : Goal) (scope : Scope) (place : Place) : Plan :=
  goal.buildWithin program program.allowance scope place

end Goal

/-- The plan of a closed goal. -/
def Closure.build (program : Program) (closure : Closure) : Plan :=
  closure.goal.build program closure.scope closure.place

/-! ### One equation for every kind of goal -/

namespace Goal

theorem buildOnto_eq_close (program : Program) (call : Closure → Plan) (scope : Scope)
    (goal : Goal) (place : Place) (outer : List Plan.Outer) :
    goal.buildOnto program call scope place outer =
      .close outer (goal.buildOnto program call scope place []) := by
  induction goal generalizing place outer with
  | disj left right _ onRight =>
      rw [buildOnto, buildOnto, onRight, onRight _ [_]]
      rfl
  | conj first second _ onSecond =>
      rw [buildOnto, buildOnto, onSecond, onSecond _ [_]]
      rfl
  | _ => rfl

variable (program : Program) (allowance : Nat) (scope : Scope) (place : Place)

theorem buildWithin_succeed :
    Goal.succeed.buildWithin program allowance scope place = .succeed := by
  cases allowance <;> rfl

theorem buildWithin_fail : Goal.fail.buildWithin program allowance scope place = .fail := by
  cases allowance <;> rfl

theorem buildWithin_never :
    Goal.never.buildWithin program allowance scope place = .suspend ⟨.never, [], place⟩ := by
  cases allowance <;> rfl

theorem buildWithin_always :
    Goal.always.buildWithin program allowance scope place =
      .suspend ⟨.disj .succeed .always, [], place⟩ := by
  cases allowance <;> rfl

theorem buildWithin_eq (left right : Expr) :
    (Goal.eq left right).buildWithin program allowance scope place =
      .eq (left.build scope (.part 0 place)) (right.build scope (.part 1 place)) := by
  cases allowance <;> rfl

theorem buildWithin_disj (left right : Goal) :
    (Goal.disj left right).buildWithin program allowance scope place =
      .disj (left.buildWithin program allowance scope (.part 0 place))
        (right.buildWithin program allowance scope (.part 1 place)) := by
  cases allowance <;> (rw [buildWithin, buildOnto, buildOnto_eq_close]; rfl)

theorem buildWithin_conj (first second : Goal) :
    (Goal.conj first second).buildWithin program allowance scope place =
      .conj (first.buildWithin program allowance scope (.part 0 place))
        (second.buildWithin program allowance scope (.part 1 place)) := by
  cases allowance <;> (rw [buildWithin, buildOnto, buildOnto_eq_close]; rfl)

theorem buildWithin_fresh (name : String) (body : Goal) :
    (Goal.fresh name body).buildWithin program allowance scope place =
      .fresh name ⟨body, scope, place⟩ := by
  cases allowance <;> rfl

theorem buildWithin_suspend (body : Goal) :
    (Goal.suspend body).buildWithin program allowance scope place =
      .suspend ⟨body, scope, place⟩ := by
  cases allowance <;> rfl

theorem buildWithin_times (count : Nat) :
    (Goal.times count).buildWithin program allowance scope place = .times count := by
  cases allowance <;> rfl

/-- A call is built as the body of the relation. -/
theorem buildWithin_call {relation : Relation} {name : String} (arguments : List Expr)
    (found : program.find? name = some relation) :
    (Goal.call name arguments).buildWithin program (allowance + 1) scope place =
      relation.body.buildWithin program allowance
        (relation.parameters.zip (buildArguments scope (.part 0 place) arguments)).reverse
        (.part 1 place) := by
  simp [buildWithin, buildOnto, found, Relation.closure]

/-- A call beyond the allowance is suspended. -/
theorem buildWithin_call_zero {relation : Relation} {name : String} (arguments : List Expr)
    (found : program.find? name = some relation) :
    (Goal.call name arguments).buildWithin program 0 scope place =
      .suspend
        (relation.closure (buildArguments scope (.part 0 place) arguments) (.part 1 place)) := by
  simp [buildWithin, buildOnto, found]

/-- Nothing is related by an unknown relation. -/
theorem buildWithin_call_of_none {name : String} (arguments : List Expr)
    (missing : program.find? name = none) :
    (Goal.call name arguments).buildWithin program allowance scope place = .fail := by
  cases allowance <;> simp [buildWithin, buildOnto, missing]

end Goal

end Relational
