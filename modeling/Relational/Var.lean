/-
Module: Relational.Var
Purpose: Logic variables and the names that reified variables print as.
Main exports: Var, Var.capacity, Var.ofNat?, reifiedName
-/

namespace Relational

/-!
A logic variable is only an identifier.  There are finitely many: identifiers are counted from
zero by a machine word whose last value is never handed out.  The bound is part of the type, which
is what lets a chain of distinct variables be bounded without looking at a term.
-/

/-- The number of logic variables: the largest word of 64 bits.  Handing that one out would overflow
the counter, which is checked. -/
def Var.capacity : Nat := 0xffffffffffffffff

/-- A logic variable. -/
@[ext]
structure Var where
  id : Nat
  inRange : id < Var.capacity
deriving Repr

namespace Var

/-- Variables are equal when their identifiers are. -/
@[inline]
instance : DecidableEq Var := fun x y =>
  decidable_of_iff (x.id = y.id) Var.ext_iff.symm

/-- The variable of an identifier, if there is one. -/
def ofNat? (id : Nat) : Option Var :=
  if inRange : id < capacity then some ⟨id, inRange⟩ else none

theorem ofNat?_id (x : Var) : ofNat? x.id = some x := by
  simp [ofNat?, x.inRange]

theorem ofNat?_eq_none_iff {id : Nat} : ofNat? id = none ↔ capacity ≤ id := by
  by_cases inRange : id < capacity <;> simp [ofNat?, inRange]; omega

/-- Variables are ordered by their identifiers. -/
def compare (x y : Var) : Ordering :=
  Ord.compare x.id y.id

/-- The later of two variables. -/
def max (x y : Var) : Var :=
  if x.compare y = .gt then x else y

/-- A variable is written as a number sign and its identifier. -/
def text (x : Var) : String :=
  "#" ++ x.id.repr

end Var

/-- The name that stands for the unbound variable with the given number in an answer. -/
def reifiedName (number : Nat) : String :=
  "_." ++ number.repr

end Relational
