/-
Module: Relational.Stream.Merge
Purpose: Fair merging of two streams.
Main exports: Stream.merge
-/
import Relational.Stream.Basic

namespace Relational.Stream

/-!
Merging alternates between the two streams, the left one first.  When it is the turn of a
suspension, the merge itself is suspended and the other stream goes first when it is resumed, so
neither stream can hold up the other.
-/

variable {ι κ α : Type}

/-- Merges two streams behind elements already placed, the latest first.  Each round takes one
element from either side. -/
def mergeAfter (placed : List α) : Stream ι κ α → Stream ι κ α → Stream ι κ α
  | .nil, right => reverseOnto placed right
  | .delay left, right => reverseOnto placed (.delay (.merge right left))
  | .cons a left, .nil => reverseOnto (a :: placed) left
  | .cons a left, .delay right => reverseOnto (a :: placed) (.delay (.merge left right))
  | .cons a left, .cons b right => left.mergeAfter (b :: a :: placed) right

/-- The fair merge of two streams. -/
def merge (left right : Stream ι κ α) : Stream ι κ α :=
  left.mergeAfter [] right

theorem mergeAfter_eq (placed : List α) (left right : Stream ι κ α) :
    left.mergeAfter placed right = reverseOnto placed (left.merge right) := by
  induction left using matureInduction generalizing placed right with
  | onNil => rfl
  | onDelay suspension => rfl
  | onCons a left onLeft =>
      cases right with
      | nil => rfl
      | delay right => rfl
      | cons b right =>
          rw [merge, mergeAfter, mergeAfter, onLeft, onLeft [b, a]]
          rfl

@[simp] theorem merge_nil (right : Stream ι κ α) : merge .nil right = right := rfl

@[simp] theorem merge_delay (suspension : Suspension ι κ α) (right : Stream ι κ α) :
    merge (.delay suspension) right = .delay (.merge right suspension) := rfl

/-- After an element of the left stream it is the turn of the right one. -/
@[simp] theorem merge_cons (a : α) (left right : Stream ι κ α) :
    merge (.cons a left) right = .cons a (merge right left) := by
  cases right with
  | nil => rfl
  | delay suspension => rfl
  | cons b right =>
      rw [merge, mergeAfter, mergeAfter_eq]
      have turn : merge (.cons b right) left = .cons b (merge left right) := by
        cases left with
        | nil => rfl
        | delay suspension => rfl
        | cons a' left' => exact merge_cons b right (.cons a' left')
      rw [turn]
      rfl
termination_by left.mature.length + right.mature.length

/-- Merging two streams brings forward no elements but theirs. -/
theorem mem_mature_of_merge {a : α} {left right : Stream ι κ α}
    (member : a ∈ (left.merge right).mature) : a ∈ left.mature ∨ a ∈ right.mature := by
  match left with
  | .nil => exact Or.inr member
  | .delay suspension => simp at member
  | .cons b left =>
      rw [merge_cons, mature_cons, List.mem_cons] at member
      rw [mature_cons, List.mem_cons]
      rcases member with rfl | member
      · exact Or.inl (Or.inl rfl)
      · rcases mem_mature_of_merge member with onRight | onLeft
        · exact Or.inr onRight
        · exact Or.inl (Or.inr onLeft)
termination_by left.mature.length + right.mature.length

end Relational.Stream
