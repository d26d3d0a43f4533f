/-
Module: Relational.State
Purpose: Search states: a substitution and the identifier of the next fresh variable.
Main exports: State, State.fresh?, State.text
-/
import Relational.Substitution.Reify
import Relational.Substitution.Text

namespace Relational

/-- A search state. -/
structure State where
  substitution : Substitution
  /-- The identifier that the next fresh variable receives. -/
  counter : Nat
deriving DecidableEq, Repr

namespace State

/-- The state in which a search begins. -/
def empty : State := ⟨.empty, 0⟩

/-- The same counter with another substitution. -/
def withSubstitution (s : State) (substitution : Substitution) : State :=
  { s with substitution }

/-- States are equal when their counters are, and their substitutions hold equal mappings. -/
def eqv (left right : State) : Bool :=
  left.substitution.eqv right.substitution && decide (left.counter = right.counter)

/-- A variable that the state has not handed out yet, with the state to go on with.  There is none
once the counter has passed the last variable; identifiers are never used again.  This is the build
that checks additions for overflow; without the check the counter would wrap around to zero. -/
def fresh? (s : State) : Option (Var × State) :=
  (Var.ofNat? s.counter).map fun x => (x, { s with counter := s.counter + 1 })

theorem fresh?_eq_none_iff {s : State} : s.fresh? = none ↔ Var.capacity ≤ s.counter := by
  simp [fresh?, Var.ofNat?_eq_none_iff]

theorem fresh?_eq_some_iff {s s' : State} {x : Var} :
    s.fresh? = some (x, s') ↔ x.id = s.counter ∧ s' = ⟨s.substitution, s.counter + 1⟩ := by
  obtain ⟨substitution, counter⟩ := s
  by_cases inRange : counter < Var.capacity
  · simp only [fresh?, Var.ofNat?, inRange, dite_true, Option.map_some, Option.some.injEq,
      Prod.mk.injEq, Var.ext_iff]
    constructor <;> rintro ⟨rfl, rfl⟩ <;> exact ⟨rfl, rfl⟩
  · have := x.inRange
    simp only [fresh?, Var.ofNat?, inRange, dite_false, Option.map_none, reduceCtorEq, false_iff]
    omega

/-- Resolves a term under the state's substitution. -/
def resolve (s : State) (term : Term) : Term := s.substitution.resolve term

/-- Reifies a term under the state's substitution. -/
def reify (s : State) (term : Term) : Term := s.substitution.reify term

/-- Appends a state to the text written so far. -/
def write (written : String) (s : State) : String :=
  s.substitution.write (written ++ "State \x7b substitution: ") ++ ", counter: " ++
    s.counter.repr ++ " \x7d"

/-- The text of a state. -/
def text (s : State) : String := s.write ""

end State

end Relational
