/-
Module: Relational.Branch
Purpose: Branches of a search.
Main exports: Branch, Branch.root, Branch.choose
-/
import Relational.State

namespace Relational

/-!
A search may reach equal states in different ways.  Whatever is built on the way to one of them is
not the same as what is built on the way to another, so a branch remembers the choices that led to
it.  Nothing else depends on the choices: two branches with one state have the same answers.
-/

/-- A state and the choices that led to it, the latest first. -/
structure Branch where
  state : State
  choices : List Nat
deriving DecidableEq, Repr

namespace Branch

/-- The branch on which nothing has been chosen yet. -/
def root (s : State) : Branch := ⟨s, []⟩

/-- The branch after one more choice. -/
def choose (index : Nat) (branch : Branch) : Branch :=
  { branch with choices := index :: branch.choices }

/-- The branch as it goes on in another state. -/
def withState (branch : Branch) (s : State) : Branch :=
  { branch with state := s }

@[simp] theorem state_root (s : State) : (root s).state = s := rfl

@[simp] theorem state_choose (index : Nat) (branch : Branch) :
    (branch.choose index).state = branch.state := rfl

@[simp] theorem state_withState (branch : Branch) (s : State) :
    (branch.withState s).state = s := rfl

end Branch

end Relational
