/-
Module: Relational.Expectation
Purpose: Expectations about the answers of goals, and the complaints when they are not met.
Main exports: Expectation.Complaint, Expectation.fails, Expectation.succeeds, Expectation.unique
-/
import Relational.Goal.Run

namespace Relational.Expectation

/-- Why an expectation was not met. -/
inductive Complaint where
  /-- There should have been no solution. -/
  | unexpected (states : List State)
  /-- There should have been a solution. -/
  | missing
  /-- Two optional terms should have been equal. -/
  | different (left right : Option Term)
  /-- The search had to be stopped for want of variables. -/
  | outOfVariables
deriving DecidableEq, Repr

/-- A list in brackets. -/
def listText {α : Type} (text : α → String) (items : List α) : String :=
  "[" ++ String.intercalate ", " (items.map text) ++ "]"

/-- An optional term. -/
def optionText : Option Term → String
  | none => "None"
  | some term => term.write "Some(" ++ ")"

/-- The complaint as a sentence. -/
def Complaint.message : Complaint → String
  | .unexpected states => "expected no solution, got " ++ listText State.text states
  | .missing => "expected a solution"
  | .different left right =>
    "assertion `left == right` failed\n  left: " ++ optionText left ++
      "\n right: " ++ optionText right
  | .outOfVariables => Event.message .outOfVariables

/-- The first solution of a plan from the empty state, if there is one. -/
def firstSolution (program : Program) (fuel : Nat) (plan : Plan) :
    Except Complaint (List State) :=
  let harvest := (program.run fuel (.upTo 1) plan .empty).value
  if harvest.ending = .stopped then .error .outOfVariables else .ok harvest.items

/-- The plan has no solution. -/
def fails (program : Program) (fuel : Nat) (plan : Plan) : Except Complaint Unit :=
  match firstSolution program fuel plan with
  | .ok [] => .ok ()
  | .ok states => .error (.unexpected states)
  | .error complaint => .error complaint

/-- The plan has a solution. -/
def succeeds (program : Program) (fuel : Nat) (plan : Plan) : Except Complaint Unit :=
  match firstSolution program fuel plan with
  | .ok [] => .error .missing
  | .ok _ => .ok ()
  | .error complaint => .error complaint

/-- The expected term is the one solution.  The first solution is looked at first. -/
def unique (solutions : List Term) (expected : Term) : Except Complaint Unit :=
  match solutions with
  | [] => .error (.different none (some expected))
  | first :: rest =>
    if first.equals expected then
      match rest with
      | [] => .ok ()
      | second :: _ => .error (.different (some second) none)
    else .error (.different (some first) (some expected))

end Relational.Expectation
