/-
Module: Relational.Query
Purpose: Queries: goals about one or several variables whose answers are wanted.
Main exports: Wanted, Query, Query.runFrom, Query.run
-/
import Relational.Goal.Run

namespace Relational

/-!
A query introduces a variable and asks what it stands for.  To ask for several variables at once, a
hidden query variable is made equal to the list of them.  The hidden variable has no name, so it
cannot capture a name of the goals.  The list is written with the names of the variables, so where
two of them have one name, it holds the one that is introduced last twice.
-/

/-- The variables that a query asks for. -/
inductive Wanted where
  | one (name : String)
  | several (names : List String)
deriving DecidableEq, Repr

/-- Goals to be met together, and the variables whose values are wanted. -/
structure Query where
  wanted : Wanted
  goals : List Goal
deriving Repr

namespace Query

/-- The scope of the query's goals once the query variable is known. -/
def scope (query : Query) (outer : Scope) (q : Var) : Scope :=
  match query.wanted with
  | .one name => (name, .var q) :: outer
  | .several _ => outer

/-- The goal that the query variable has to meet. -/
def goal (query : Query) (q : Var) : Goal :=
  match query.wanted with
  | .one _ => .conjAll query.goals
  | .several names =>
    .freshAll names (.conjAll (.eq (.nameList names) (.var q) :: query.goals))

/-- Runs a query from a state: introduces the query variable, meets the goals and reifies the
variable in every state found. -/
def runFrom (program : Program) (fuel : Nat) (demand : Demand) (outer : Scope) (place : Place)
    (query : Query) (s : State) : Traced Event (Harvest Term) :=
  match s.fresh? with
  | none => .after .outOfVariables (.pure ⟨[], 0, .stopped⟩)
  | some (q, s) =>
    let plan := (query.goal q).build program (query.scope outer q) place
    (Traced.after (.introduced q) (program.run fuel demand plan s)).map
      (·.map fun s => s.reify (.var q))

/-- Runs a query from the empty state. -/
def run (program : Program) (fuel : Nat) (demand : Demand) (outer : Scope) (place : Place)
    (query : Query) : Traced Event (Harvest Term) :=
  query.runFrom program fuel demand outer place .empty

end Query

end Relational
