/-
Module: Relational.Expr
Purpose: Term expressions, which programs use to describe terms before their variables are known.
Main exports: Expr, Scope, Expr.nameList, Expr.numberList, Expr.varList, Expr.build
-/
import Relational.Term.Basic

namespace Relational

/-!
An expression becomes a term in a scope that gives terms to names.  Building is what makes new
atoms, so it is told where it happens: each value of the expression originates at a part of the
place of the building.  A name contributes the very term it stands for, so what two places obtain by
name is shared, and what they write out is not.

Atoms have to be told apart only where a value differs from itself.  Lists of numbers and lists of
variables may be long and hold no such value, so they are made with the expression.
-/

/-- A description of a term. -/
inductive Expr where
  | value (v : Value)
  | var (x : Var)
  | name (n : String)
  | pair (first second : Expr)
  /-- A term that is the same wherever the expression is built. -/
  | term (t : Term)
  /-- A list that holds one term several times. -/
  | copies (count : Nat) (item : Expr)
  /-- A term wrapped several times in a list of one element. -/
  | nested (depth : Nat) (item : Expr)
deriving DecidableEq, Repr

/-- The terms that names stand for, innermost name first. -/
abbrev Scope := List (String × Term)

namespace Scope

/-- The term of the innermost binding of a name; a name without a binding stands for the empty
list. -/
def find (scope : Scope) (name : String) : Term :=
  (scope.lookup name).getD .nil

end Scope

namespace Expr

/-- A list expression. -/
def ofList (items : List Expr) (tail : Expr) : Expr :=
  items.foldr .pair tail

/-- The list of what the names stand for. -/
def nameList (names : List String) : Expr :=
  ofList (names.map .name) (.term .nil)

/-- The type of the numbers that are written without a type. -/
def plainInteger : IntegerType := ⟨true, .bits32⟩

/-- The list `item 0`, …, `item (count - 1)` in front of a tail, made from its end. -/
def tabulate (item : Nat → Term) : Nat → Term → Term
  | 0, tail => tail
  | count + 1, tail => tabulate item count (.pair (item count) tail)

/-- The term `t` in `depth` lists of one element. -/
def wrap : Nat → Term → Term
  | 0, t => t
  | depth + 1, t => wrap depth (.pair t .nil)

/-- The variable of an identifier; there is none beyond the last identifier. -/
def varTerm (id : Nat) : Term :=
  (Var.ofNat? id).elim .nil .var

@[simp] theorem varTerm_id (x : Var) : varTerm x.id = .var x := by
  rw [varTerm, Var.ofNat?_id]
  rfl

/-- The list of the plain integers from `start` to just below `stop`. -/
def numberList (start stop : Int) : Expr :=
  .term (tabulate (fun index => .atom ⟨.integer plainInteger (start + index), .root 0⟩)
    (stop - start).toNat .nil)

/-- The list of the variables from `start` to just below `stop`. -/
def varList (start stop : Nat) : Expr :=
  .term (tabulate (fun index => varTerm (start + index)) (stop - start) .nil)

/-- The term that an expression describes, built at the given place. -/
def build (scope : Scope) (place : Place) : Expr → Term
  | .value v => .atom ⟨v, place⟩
  | .var x => .var x
  | .name n => scope.find n
  | .pair first second =>
    .pair (first.build scope (.part 0 place)) (second.build scope (.part 1 place))
  | .term t => t
  | .copies count item =>
    let shared := item.build scope (.part 0 place)
    tabulate (fun _ => shared) count .nil
  | .nested depth item =>
    wrap depth (item.build scope (.part 0 place))

end Expr

/-- Gives terms to names one after the other; later expressions see earlier names. -/
def Scope.define (scope : Scope) (place : Place) (bindings : List (String × Expr)) : Scope :=
  (bindings.foldl
    (fun (scope, index) (name, expr) =>
      ((name, expr.build scope (.part index place)) :: scope, index + 1))
    (scope, 0)).1

end Relational
