/-
Module: Relational.Goal.Basic
Purpose: Goals, named relations, and the events of a search.
Main exports: Goal, Goal.disjAll, Goal.conjAll, Goal.freshAll, Relation, Program, Event
-/
import Relational.Expr
import Relational.Join
import Relational.State

namespace Relational

/-!
A goal describes a search that starts from a state.  Goals are data: their terms are expressions
over names, and a named relation is called with terms for its parameters.  How a goal becomes a plan
that holds its terms is said in `Relational.Goal.Plan`, and what a plan does in
`Relational.Goal.Search`.
-/

/-- A goal. -/
inductive Goal where
  /-- Holds at once. -/
  | succeed
  /-- Never holds. -/
  | fail
  /-- Goes on for ever without an answer. -/
  | never
  /-- Holds again and again without end. -/
  | always
  /-- The two terms are equal. -/
  | eq (left right : Expr)
  /-- One of the two holds. -/
  | disj (left right : Goal)
  /-- Both hold. -/
  | conj (first second : Goal)
  /-- The body holds for a new variable of that name. -/
  | fresh (name : String) (body : Goal)
  /-- The same as the body, searched only on demand. -/
  | suspend (body : Goal)
  /-- The named relation holds of the terms. -/
  | call (relation : String) (arguments : List Expr)
  /-- Holds the given number of times. -/
  | times (count : Nat)
deriving Repr

namespace Goal

/-- The disjunction of a list of goals, nested to the right. -/
def disjAll : List Goal → Goal := joinAll .fail .disj

/-- The conjunction of a list of goals, nested to the right. -/
def conjAll : List Goal → Goal := joinAll .succeed .conj

/-- New variables of the given names, the first one outermost, around a body. -/
def freshAll (names : List String) (body : Goal) : Goal :=
  names.foldr .fresh body

end Goal

/-- A relation: its parameters and the goal that defines it, which sees nothing but them. -/
structure Relation where
  parameters : List String
  body : Goal
deriving Repr

/-- The relations that goals may call, by name. -/
abbrev Program := List (String × Relation)

/-- What a search reports. -/
inductive Event where
  /-- A new variable was handed out. -/
  | introduced (x : Var)
  /-- Two terms could not be made equal. -/
  | failed (failure : Failure)
  /-- There was no variable left to hand out. -/
  | outOfVariables
  /-- Up to `requested` answers were taken. -/
  | took (requested taken forced : Nat)
  /-- All answers were taken. -/
  | tookAll (taken forced : Nat)
deriving DecidableEq, Repr

namespace Event

/-- A search cannot go on without variables. -/
def isFatal : Event → Bool
  | .outOfVariables => true
  | _ => false

/-- How important an event is. -/
def level : Event → String
  | .introduced _ | .failed _ => "TRACE"
  | .outOfVariables => "ERROR"
  | .took .. | .tookAll .. => "DEBUG"

/-- What an event says, apart from its data. -/
def message : Event → String
  | .introduced _ => "introduced fresh variable"
  | .failed _ => "unification failed"
  | .outOfVariables => "attempt to add with overflow"
  | .took .. => "took from stream"
  | .tookAll .. => "took all from stream"

end Event

end Relational
