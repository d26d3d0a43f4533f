/-
Module: Relational.Place
Purpose: Where and when something is built.
Main exports: Place
-/

namespace Relational

/-!
A value may differ from itself, so an atom is told apart from another one of the same value by the
place at which it was built.  A place is a path.  It begins at a root, goes down into the parts of
what is being built, and where something is built anew on every branch of a search, it goes on by
naming the branch.

A path may be long, but two places that have to be compared usually have most of it in common, and
then share it.  The comparison looks at what is latest first and stops where the two sides are the
same object.
-/

/-- The place at which something is built. -/
inductive Place where
  /-- One of the things that are built on their own. -/
  | root (number : Nat)
  /-- A part of something. -/
  | part (index : Nat) (whole : Place)
  /-- A place on one branch of a search, which is known by the choices that led to it. -/
  | visit (place : Place) (choices : List Nat)
deriving Repr

namespace Place

/-- Equality of places, decided without looking into a place that both sides share. -/
def decEq : (p q : Place) → Decidable (p = q)
  | .root m, .root n => decidable_of_iff (m = n) (by simp)
  | .part i p, .part j q =>
    if sameIndex : i = j then
      match withPtrEqDecEq p q fun _ => decEq p q with
      | isTrue same => isTrue (by rw [sameIndex, same])
      | isFalse different => isFalse (by simp [different])
    else isFalse (by simp [sameIndex])
  | .visit p choices, .visit q choices' =>
    if sameChoices : choices = choices' then
      match withPtrEqDecEq p q fun _ => decEq p q with
      | isTrue same => isTrue (by rw [sameChoices, same])
      | isFalse different => isFalse (by simp [different])
    else isFalse (by simp [sameChoices])
  | .root _, .part .. | .root _, .visit .. | .part .., .root _ | .part .., .visit ..
  | .visit .., .root _ | .visit .., .part .. => isFalse (by simp)

instance : DecidableEq Place := fun p q => withPtrEqDecEq p q fun _ => decEq p q

end Place

end Relational
