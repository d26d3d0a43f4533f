/-
Module: Relational.Term.Basic
Purpose: Terms of the logic, their equality, and the traversals that everything else is made of.
Main exports: Atom, Term, Term.eqv, Term.subst, Term.anyVar, Term.foldVars
-/
import Relational.Place
import Relational.Value

namespace Relational

/-!
A term is a variable, an atom or a pair.  Lists are right-nested pairs that end in the unit atom
and may be very long, so every traversal below runs through second components in a loop and only
descends into first components.
-/

/-- A value together with the place at which it was made.  Copies of an atom share its origin, atoms
made apart have different ones. -/
structure Atom where
  value : Value
  origin : Place
deriving DecidableEq, Repr

/-- Atoms are equal by value or because they are copies of one atom.  The second way matters only
for a value that differs from itself. -/
def Atom.eqv (left right : Atom) : Bool :=
  left.value.eqv right.value || decide (left = right)

namespace Atom

theorem eqv_refl (atom : Atom) : eqv atom atom = true := by
  simp [eqv]

theorem eqv_symm (left right : Atom) : eqv left right = eqv right left := by
  simp [eqv, Value.eqv_symm left.value, eq_comm]

theorem eqv_trans {left middle right : Atom}
    (first : eqv left middle = true) (second : eqv middle right = true) :
    eqv left right = true := by
  simp only [eqv, Bool.or_eq_true, decide_eq_true_eq] at first second ⊢
  rcases first with byValue | rfl
  · rcases second with byValue' | rfl
    · exact Or.inl (Value.eqv_trans byValue byValue')
    · exact Or.inl byValue
  · exact second

end Atom

/-- A term of the logic. -/
inductive Term where
  | var (x : Var)
  | atom (a : Atom)
  | pair (first second : Term)
deriving DecidableEq, Repr

namespace Term

/-- The unit atom, which is also the empty list. -/
def nil : Term := .atom ⟨.unit, .root 0⟩

/-- True of the unit atom only. -/
def isNil : Term → Bool
  | .atom ⟨.unit, _⟩ => true
  | _ => false

/-- True of an atom that holds an equal value of the same type.  Unlike `Term.eqv` this looks at
values only. -/
def hasValue (value : Value) : Term → Bool
  | .atom a => a.value.eqv value
  | _ => false

/-- Items consed onto a tail. -/
def ofList (items : List Term) (tail : Term) : Term :=
  items.foldr .pair tail

/-- Number of pairs and leaves. -/
def size : Term → Nat
  | .pair first second => first.size + second.size + 1
  | _ => 1

/-- Variables are equal by identifier, atoms as `Atom.eqv` says, pairs component by component. -/
def eqv : Term → Term → Bool
  | .var x, .var y => decide (x = y)
  | .atom left, .atom right => left.eqv right
  | .pair first second, .pair first' second' => first.eqv first' && second.eqv second'
  | _, _ => false

theorem eqv_refl (term : Term) : eqv term term = true := by
  induction term with
  | var x => simp [eqv]
  | atom a => exact a.eqv_refl
  | pair first second onFirst onSecond => simp [eqv, onFirst, onSecond]

theorem eqv_symm (left right : Term) : eqv left right = eqv right left := by
  induction left generalizing right with
  | var x => cases right <;> simp [eqv, eq_comm]
  | atom a =>
      cases right with
      | atom b => exact Atom.eqv_symm a b
      | _ => rfl
  | pair first second onFirst onSecond =>
      cases right with
      | pair first' second' => simp [eqv, onFirst first', onSecond second']
      | _ => rfl

theorem eqv_trans {left middle right : Term}
    (leftMiddle : eqv left middle = true) (middleRight : eqv middle right = true) :
    eqv left right = true := by
  induction left generalizing middle right with
  | var x =>
      cases middle with
      | var y =>
          simp only [eqv, decide_eq_true_eq] at leftMiddle
          exact leftMiddle ▸ middleRight
      | _ => simp [eqv] at leftMiddle
  | atom a =>
      cases middle with
      | atom b =>
          cases right with
          | atom c => exact Atom.eqv_trans leftMiddle middleRight
          | _ => simp [eqv] at middleRight
      | _ => simp [eqv] at leftMiddle
  | pair first second onFirst onSecond =>
      cases middle with
      | pair first' second' =>
          cases right with
          | pair first'' second'' =>
              simp only [eqv, Bool.and_eq_true] at leftMiddle middleRight ⊢
              exact ⟨onFirst leftMiddle.1 middleRight.1, onSecond leftMiddle.2 middleRight.2⟩
          | _ => simp [eqv] at middleRight
      | _ => simp [eqv] at leftMiddle

/-! ### Shared pairs

A term may hold one pair in many places.  Comparing such a term with itself by `eqv` visits the
pair once for every place; the comparison below visits no pair that it can see to be the same. -/

/-- The answer of `eqv`, found without looking into a pair that is the same object on both sides. -/
def eqvSharing : (left right : Term) → { answer : Bool // answer = left.eqv right }
  | .var x, .var y => ⟨decide (x = y), rfl⟩
  | .atom left, .atom right => ⟨left.eqv right, rfl⟩
  | .pair first second, .pair first' second' =>
    have agrees : ((eqvSharing first first').val && (eqvSharing second second').val) =
        (pair first second).eqv (pair first' second') := by
      rw [(eqvSharing first first').property, (eqvSharing second second').property, eqv]
    ⟨withPtrEq (pair first second) (pair first' second')
        (fun _ => (eqvSharing first first').val && (eqvSharing second second').val)
        (fun same => agrees.trans (by rw [same]; exact eqv_refl _)),
      agrees⟩
  | .var _, .atom _ | .var _, .pair .. | .atom _, .var _ | .atom _, .pair .. | .pair .., .var _
  | .pair .., .atom _ => ⟨false, rfl⟩

/-- Equality of terms, quick for terms that share pairs. -/
def equals (left right : Term) : Bool := (eqvSharing left right).val

@[simp]
theorem equals_eq_eqv (left right : Term) : equals left right = eqv left right :=
  (eqvSharing left right).property

/-! ### Traversals -/

/-- True when some variable of the term satisfies the test. -/
def anyVar (test : Var → Bool) : Term → Bool
  | .var x => test x
  | .atom _ => false
  | .pair first second => first.anyVar test || second.anyVar test

/-- Combines the variables of a term from left to right. -/
def foldVars {β : Type} (combine : β → Var → β) : β → Term → β
  | seen, .var x => combine seen x
  | seen, .atom _ => seen
  | seen, .pair first second => foldVars combine (foldVars combine seen first) second

/-- The variables of a term from left to right, with repetitions. -/
def vars : Term → List Var
  | .var x => [x]
  | .atom _ => []
  | .pair first second => first.vars ++ second.vars

theorem foldVars_eq_foldl {β : Type} (combine : β → Var → β) (seen : β) (term : Term) :
    foldVars combine seen term = term.vars.foldl combine seen := by
  induction term generalizing seen with
  | var x => rfl
  | atom a => rfl
  | pair first second onFirst onSecond =>
      simp [foldVars, vars, onFirst, onSecond]

theorem anyVar_eq_any (test : Var → Bool) (term : Term) :
    term.anyVar test = term.vars.any test := by
  induction term with
  | var x => simp [anyVar, vars]
  | atom a => rfl
  | pair first second onFirst onSecond => simp [anyVar, vars, onFirst, onSecond]

/-! ### Substitution of variables

Replacing every variable is the homomorphic extension of a map on variables.  The loop keeps the
finished first components of a list, innermost first, until it meets the end of the list. -/

/-- Puts finished first components in front of a term, the most recent one innermost. -/
def closeOver (firsts : List Term) (last : Term) : Term :=
  firsts.foldl (fun rest first => .pair first rest) last

/-- Substitutes in a term that stands at the end of the list begun by `firsts`. -/
def substOnto (image : Var → Term) (firsts : List Term) : Term → Term
  | .var x => closeOver firsts (image x)
  | .atom a => closeOver firsts (.atom a)
  | .pair first second => second.substOnto image (first.substOnto image [] :: firsts)

/-- The term with every variable replaced by its image. -/
def subst (image : Var → Term) (term : Term) : Term :=
  term.substOnto image []

theorem substOnto_eq_closeOver (image : Var → Term) (firsts : List Term) (term : Term) :
    term.substOnto image firsts = closeOver firsts (term.subst image) := by
  induction term generalizing firsts with
  | var x => rfl
  | atom a => rfl
  | pair first second _ onSecond =>
      rw [subst, substOnto, substOnto, onSecond, onSecond [_]]
      rfl

@[simp]
theorem subst_var (image : Var → Term) (x : Var) : (Term.var x).subst image = image x := rfl

@[simp]
theorem subst_atom (image : Var → Term) (a : Atom) :
    (Term.atom a).subst image = .atom a := rfl

@[simp]
theorem subst_pair (image : Var → Term) (first second : Term) :
    (Term.pair first second).subst image = .pair (first.subst image) (second.subst image) := by
  rw [subst, substOnto, substOnto_eq_closeOver]
  rfl

end Term

end Relational
