/-
Module: Relational.Substitution.Reify
Purpose: Full resolution of terms and the canonical form of answers.
Main exports: Substitution.resolve, Term.names, Substitution.reify
-/
import Relational.Substitution.Basic

namespace Relational

/-!
Resolving a term replaces every bound variable by what it stands for, all the way down.  Reifying
goes one step further: the variables that are left are replaced by the names `_.0`, `_.1`, … in
the order in which they first occur.  The names form a substitution of their own.
-/

/-- The atom that stands for the unbound variable with the given number. -/
def Term.reified (number : Nat) : Term := .atom ⟨.reified number, .root 0⟩

namespace Substitution

/-- Replaces bound variables throughout a term, crossing at most `limit` bindings to a pair on any
path. -/
def resolveWithin (s : Substitution) : Nat → Term → Term
  | 0 => id
  | limit + 1 => Term.subst fun x =>
    match s.walk (.var x) with
    | .pair first second => s.resolveWithin limit (.pair first second)
    | term => term

/-- The term with every bound variable replaced by what it stands for. -/
def resolve (s : Substitution) (term : Term) : Term :=
  s.resolveWithin s.size term

/-- Gives the next name to a variable that has none. -/
def nameNext (names : Substitution) (x : Var) : Substitution :=
  match names.lookup x with
  | some _ => names
  | none => names.prepend ⟨x, .reified names.size⟩

end Substitution

/-- Names for the variables of a term in the order in which they first occur. -/
def Term.names (term : Term) : Substitution :=
  term.foldVars Substitution.nameNext .empty

/-- The canonical form of a term: resolved, with its unbound variables named in order of
occurrence. -/
def Substitution.reify (s : Substitution) (term : Term) : Term :=
  let resolved := s.resolve term
  let names := resolved.names
  resolved.subst fun x => (names.lookup x).getD (.var x)

end Relational
