/-
Module: Relational.Stream.Consume
Purpose: Taking elements out of streams.
Main exports: Stream.advance, Stream.pull, Demand, Harvest, Stream.collect
-/
import Relational.Stream.Force

namespace Relational

/-!
A stream may be suspended for ever, so everything that forces is given a bound.  `advance` forces a
given number of suspensions at most, and so does `pull`, which is one call of an iterator: it gives
the next element and leaves the iterator with the stream behind it.  `collect` counts both elements
and forced suspensions against its fuel and says how it came to an end; a harvest that is not
`unfinished` does not depend on the fuel.
-/

variable {ε ι κ α : Type}

/-- The stream reached by forcing, how many suspensions were forced, and whether a fatal event put
an end to it. -/
structure Advance (ι κ α : Type) where
  stream : Stream ι κ α
  forced : Nat
  stopped : Bool

/-- Goes on forcing after some suspensions have been forced; `trace` holds the events so far, the
latest first. -/
def Stream.advanceFrom (rules : Rules ε ι κ α) :
    Nat → Nat → List ε → Stream ι κ α → Traced ε (Advance ι κ α)
  | limit + 1, forced, trace, .delay suspension =>
    let next := suspension.force rules
    let trace := next.events.reverse ++ trace
    if next.events.any rules.isFatal then ⟨⟨next.value, forced + 1, true⟩, trace.reverse⟩
    else next.value.advanceFrom rules limit (forced + 1) trace
  | _, forced, trace, s => ⟨⟨s, forced, false⟩, trace.reverse⟩

/-- Forces the stream while it is a suspension, at most `limit` times. -/
def Stream.advance (rules : Rules ε ι κ α) (limit : Nat) (s : Stream ι κ α) :
    Traced ε (Advance ι κ α) :=
  s.advanceFrom rules limit 0 []

/-- What a call of an iterator comes to. -/
inductive Pull (ι κ α : Type) where
  /-- An element, or nothing at the end of the stream, and the stream that the iterator holds from
  now on. -/
  | returned (item : Option α) (rest : Stream ι κ α)
  /-- A fatal event. -/
  | stopped
  /-- More suspensions than it was allowed to force. -/
  | unfinished

/-- Goes on with a call of an iterator; `trace` holds the events so far, the latest first. -/
def Stream.pullFrom (rules : Rules ε ι κ α) :
    Nat → List ε → Stream ι κ α → Traced ε (Pull ι κ α)
  | _, trace, .nil => ⟨.returned none .nil, trace.reverse⟩
  | _, trace, .cons a rest => ⟨.returned (some a) rest, trace.reverse⟩
  | 0, trace, .delay _ => ⟨.unfinished, trace.reverse⟩
  | limit + 1, trace, .delay suspension =>
    let next := suspension.force rules
    let trace := next.events.reverse ++ trace
    if next.events.any rules.isFatal then ⟨.stopped, trace.reverse⟩
    else next.value.pullFrom rules limit trace

/-- Calls the iterator of a stream for its next element; it forces at most `limit` suspensions. -/
def Stream.pull (rules : Rules ε ι κ α) (limit : Nat) (s : Stream ι κ α) :
    Traced ε (Pull ι κ α) :=
  s.pullFrom rules limit []

/-- How the collection of elements ended. -/
inductive Ending where
  /-- With the last element that was wanted. -/
  | satisfied
  /-- With the end of the stream. -/
  | exhausted
  /-- With a fatal event. -/
  | stopped
  /-- With the fuel. -/
  | unfinished
deriving DecidableEq, Repr

/-- Elements collected from a stream, in order, and the number of suspensions forced for them. -/
structure Harvest (α : Type) where
  items : List α
  forced : Nat
  ending : Ending
deriving Repr

/-- The harvest with a function applied to its elements. -/
def Harvest.map {β : Type} (f : α → β) (harvest : Harvest α) : Harvest β :=
  { harvest with items := harvest.items.map f }

/-- How many elements are wanted: a number or all there are. -/
inductive Demand where
  | upTo (count : Nat)
  | all
deriving DecidableEq, Repr

namespace Demand

/-- True once enough elements have been collected. -/
def isMet (count : Nat) : Demand → Bool
  | .upTo wanted => wanted ≤ count
  | .all => false

end Demand

/-- The elements collected so far, their number, the forced suspensions and the events; elements
and events with the latest first. -/
structure Harvest.Progress (ε α : Type) where
  reversed : List α
  count : Nat
  forced : Nat
  trace : List ε

namespace Harvest.Progress

/-- Nothing collected yet. -/
def start : Harvest.Progress ε α := ⟨[], 0, 0, []⟩

/-- One more element. -/
def add (progress : Harvest.Progress ε α) (a : α) : Harvest.Progress ε α :=
  { progress with reversed := a :: progress.reversed, count := progress.count + 1 }

/-- One more forced suspension, with the events of forcing it. -/
def force (progress : Harvest.Progress ε α) (events : List ε) : Harvest.Progress ε α :=
  { progress with forced := progress.forced + 1, trace := events.reverse ++ progress.trace }

/-- The harvest that ends here. -/
def close (progress : Harvest.Progress ε α) (ending : Ending) : Traced ε (Harvest α) :=
  ⟨⟨progress.reversed.reverse, progress.forced, ending⟩, progress.trace.reverse⟩

end Harvest.Progress

/-- Collects elements until the demand is met, forcing suspensions on the way. -/
def Stream.collectFrom (rules : Rules ε ι κ α) (demand : Demand) :
    Nat → Harvest.Progress ε α → Stream ι κ α → Traced ε (Harvest α)
  | 0, progress, _ => progress.close .unfinished
  | fuel + 1, progress, s =>
    if demand.isMet progress.count then progress.close .satisfied
    else
      match s with
      | .nil => progress.close .exhausted
      | .cons a rest => rest.collectFrom rules demand fuel (progress.add a)
      | .delay suspension =>
        let next := suspension.force rules
        let progress := progress.force next.events
        if next.events.any rules.isFatal then progress.close .stopped
        else next.value.collectFrom rules demand fuel progress

theorem Stream.collectFrom_of_isMet {rules : Rules ε ι κ α} {demand : Demand} {fuel : Nat}
    {progress : Harvest.Progress ε α} (met : demand.isMet progress.count = true)
    (s : Stream ι κ α) :
    s.collectFrom rules demand (fuel + 1) progress = progress.close .satisfied := by
  cases s with
  | nil => exact if_pos met
  | cons a rest => exact if_pos met
  | delay suspension => exact if_pos met

theorem Stream.collectFrom_cons {rules : Rules ε ι κ α} {demand : Demand} {fuel : Nat}
    {progress : Harvest.Progress ε α} (unmet : ¬ demand.isMet progress.count = true) (a : α)
    (rest : Stream ι κ α) :
    (Stream.cons a rest).collectFrom rules demand (fuel + 1) progress =
      rest.collectFrom rules demand fuel (progress.add a) :=
  if_neg unmet

/-- A collection that is not broken off at a suspension goes on with what was forced. -/
theorem Stream.collectFrom_delay {rules : Rules ε ι κ α} {demand : Demand} {fuel : Nat}
    {progress : Harvest.Progress ε α} {suspension : Suspension ι κ α}
    (unmet : ¬ demand.isMet progress.count = true)
    (running : ((Stream.delay suspension).collectFrom rules demand (fuel + 1)
      progress).value.ending ≠ .stopped) :
    (suspension.force rules).events.any rules.isFatal = false ∧
      (Stream.delay suspension).collectFrom rules demand (fuel + 1) progress =
        (suspension.force rules).value.collectFrom rules demand fuel
          (progress.force (suspension.force rules).events) := by
  rw [collectFrom, if_neg unmet] at running ⊢
  by_cases fatal : (suspension.force rules).events.any rules.isFatal = true
  · exact absurd (by rw [if_pos fatal]; rfl) running
  · exact ⟨Bool.not_eq_true _ ▸ fatal, if_neg fatal⟩

/-- Collects elements from a stream until the demand is met or the stream ends. -/
def Stream.collect (rules : Rules ε ι κ α) (fuel : Nat) (demand : Demand) (s : Stream ι κ α) :
    Traced ε (Harvest α) :=
  s.collectFrom rules demand fuel .start

end Relational
