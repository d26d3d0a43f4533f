/-
Module: Relational.Stream.Basic
Purpose: Streams of search results and what can be seen of them without forcing.
Main exports: Stream, Suspension, Stream.mature, Stream.ending, Stream.prependAll
-/

namespace Relational

/-!
A stream is empty, a first element followed by more, or a suspension.  A suspension is kept as data
rather than as a function: it names a task still to be run, or an operation still to be carried out
on another suspension.  What a task does is fixed elsewhere, by rules, so a stream may unfold for
ever although the value that describes it is finite.

The elements in front of the first suspension form the mature part.  It may be very long, so
everything here runs along it in a loop.
-/

mutual

/-- A stream of elements of `α`, with tasks in `ι` and continuations in `κ`. -/
inductive Stream (ι κ α : Type) where
  | nil
  | cons (head : α) (rest : Stream ι κ α)
  | delay (suspension : Suspension ι κ α)

/-- Work that has been put off. -/
inductive Suspension (ι κ α : Type) where
  /-- A task still to be run. -/
  | task (i : ι)
  /-- A merge that gives the first turn to `other` once `source` has been forced. -/
  | merge (other : Stream ι κ α) (source : Suspension ι κ α)
  /-- A continuation still to be applied to the elements of `source`. -/
  | bind (source : Suspension ι κ α) (continuation : κ)
  /-- A function still to be applied to the elements of `source`. -/
  | map (f : α → α) (source : Suspension ι κ α)

end

namespace Stream

variable {ι κ α : Type}

/-- The stream of one element. -/
def singleton (a : α) : Stream ι κ α := .cons a .nil

/-- Elements in front of a stream. -/
def prependAll (items : List α) (tail : Stream ι κ α) : Stream ι κ α :=
  items.foldr .cons tail

/-- The finite stream of a list's elements. -/
def ofList (items : List α) : Stream ι κ α := prependAll items .nil

/-- Elements in front of a stream, the last one of the list outermost. -/
def reverseOnto (reversed : List α) (tail : Stream ι κ α) : Stream ι κ α :=
  reversed.foldl (fun rest a => .cons a rest) tail

/-- True of the empty stream. -/
def isEmpty : Stream ι κ α → Bool
  | .nil => true
  | _ => false

/-- True of a suspension. -/
def isSuspended : Stream ι κ α → Bool
  | .delay _ => true
  | _ => false

/-- Adds the number of elements to a count, unless the stream ends in a suspension. -/
def countFrom (count : Nat) : Stream ι κ α → Option Nat
  | .nil => some count
  | .cons _ rest => rest.countFrom (count + 1)
  | .delay _ => none

/-- Number of elements of a stream without suspensions. -/
def length? (s : Stream ι κ α) : Option Nat := s.countFrom 0

/-- Collects the mature part behind elements already seen, the latest first. -/
def matureAfter (seen : List α) : Stream ι κ α → List α
  | .cons a rest => rest.matureAfter (a :: seen)
  | _ => seen.reverse

/-- The elements in front of the first suspension. -/
def mature (s : Stream ι κ α) : List α := s.matureAfter []

/-- The suspension that ends a stream, if one does. -/
def ending : Stream ι κ α → Option (Suspension ι κ α)
  | .nil => none
  | .cons _ rest => rest.ending
  | .delay suspension => some suspension

/-- Streams without suspensions are equal when their elements are; a suspension equals nothing. -/
def eqv (same : α → α → Bool) : Stream ι κ α → Stream ι κ α → Bool
  | .nil, .nil => true
  | .cons a rest, .cons a' rest' => same a a' && rest.eqv same rest'
  | _, _ => false

/-! ### Equations of the loops -/

@[simp] theorem prependAll_nil (tail : Stream ι κ α) : prependAll [] tail = tail := rfl

@[simp] theorem prependAll_cons (a : α) (items : List α) (tail : Stream ι κ α) :
    prependAll (a :: items) tail = .cons a (prependAll items tail) := rfl

/-- Induction along the mature part of a stream. -/
@[elab_as_elim]
theorem matureInduction {motive : Stream ι κ α → Prop} (onNil : motive .nil)
    (onCons : ∀ a rest, motive rest → motive (.cons a rest))
    (onDelay : ∀ suspension, motive (.delay suspension)) : ∀ s, motive s
  | .nil => onNil
  | .cons a rest => onCons a rest (matureInduction onNil onCons onDelay rest)
  | .delay suspension => onDelay suspension

theorem matureAfter_eq (seen : List α) (s : Stream ι κ α) :
    s.matureAfter seen = seen.reverse ++ s.mature := by
  induction s using matureInduction generalizing seen with
  | onNil => simp [mature, matureAfter]
  | onCons a rest onRest => simp [mature, matureAfter, onRest (a :: seen), onRest [a]]
  | onDelay suspension => simp [mature, matureAfter]

@[simp] theorem mature_nil : (Stream.nil : Stream ι κ α).mature = [] := rfl

@[simp] theorem mature_cons (a : α) (rest : Stream ι κ α) :
    (Stream.cons a rest).mature = a :: rest.mature := by
  simp [mature, matureAfter, matureAfter_eq [a]]

@[simp] theorem mature_delay (suspension : Suspension ι κ α) :
    (Stream.delay suspension).mature = [] := rfl

@[simp] theorem mature_singleton (a : α) : (singleton a : Stream ι κ α).mature = [a] := rfl

@[simp] theorem mature_ofList (items : List α) : (ofList items : Stream ι κ α).mature = items := by
  induction items with
  | nil => rfl
  | cons a items onItems => simpa [ofList] using onItems

end Stream

end Relational
