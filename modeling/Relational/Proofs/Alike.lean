/-
Module: Relational.Proofs.Alike
Purpose: Streams that show related elements and are suspended at the same
  places.
Main exports: Sight.Related, Stream.Alike, Traced.Alike, Stream.Alike.merge,
  Stream.Alike.bindWith, Stream.Alike.exists_sight
-/
import Mathlib.Data.List.Forall2
import Relational.Proofs.Unfolding

namespace Relational

/-!
Two streams are alike if whoever consumes them sees related things at every
position.  Positions are no measure for proving this of streams that are bound:
a result that is empty takes no position, so what is seen first of a bound
stream may come from far behind.  The suspensions that have to be forced are a
measure, as binding keeps them, and between two suspensions a stream is finite.

Forcing may come upon a fatal event.  It does so in both streams or in neither.
-/

/-- Both are suspensions, or both are elements and these are related. -/
inductive Sight.Related {α : Type} (related : α → α → Prop) :
    Sight α → Sight α → Prop where
  | yield {a a' : α} (elements : related a a') :
      Related related (.yield a) (.yield a')
  | tick : Related related .tick .tick

section

variable {ε ι κ α : Type} (rules rules' : Rules ε ι κ α)

/-- The streams are alike until so many suspensions have been forced. -/
inductive Stream.Alike (related : α → α → Prop) :
    Nat → Stream ι κ α → Stream ι κ α → Prop where
  | nil {ticks : Nat} : Alike related ticks .nil .nil
  | cons {ticks : Nat} {a a' : α} {rest rest' : Stream ι κ α}
      (heads : related a a') (rests : Alike related ticks rest rest') :
      Alike related ticks (.cons a rest) (.cons a' rest')
  | unforced {suspension suspension' : Suspension ι κ α} :
      Alike related 0 (.delay suspension) (.delay suspension')
  | forced {ticks : Nat} {suspension suspension' : Suspension ι κ α}
      (fatal : (suspension.force rules).events.any rules.isFatal =
        (suspension'.force rules').events.any rules'.isFatal)
      (values : Alike related ticks (suspension.force rules).value
        (suspension'.force rules').value) :
      Alike related (ticks + 1) (.delay suspension) (.delay suspension')

/-- The results are alike, and a fatal event is reported on the way to both or
to neither. -/
structure Traced.Alike (related : α → α → Prop) (ticks : Nat)
    (traced traced' : Traced ε (Stream ι κ α)) : Prop where
  fatal : traced.events.any rules.isFatal = traced'.events.any rules'.isFatal
  values : Stream.Alike rules rules' related ticks traced.value traced'.value

end

variable {ε ι κ α : Type} {rules rules' : Rules ε ι κ α}
  {related related' : α → α → Prop} {ticks : Nat} {s s' : Stream ι κ α}

namespace Stream.Alike

theorem mono (alike : Alike rules rules' related ticks s s')
    (weaker : ∀ {a a'}, related a a' → related' a a') {fewer : Nat}
    (less : fewer ≤ ticks) : Alike rules rules' related' fewer s s' := by
  induction alike generalizing fewer with
  | nil => exact .nil
  | cons heads _ onRests => exact .cons (weaker heads) (onRests less)
  | unforced =>
      obtain rfl := Nat.le_zero.1 less
      exact .unforced
  | forced fatal _ onValues =>
      cases fewer with
      | zero => exact .unforced
      | succ fewer =>
          exact .forced fatal (onValues (Nat.le_of_succ_le_succ less))

/-- Finite streams are alike if their elements are related. -/
theorem ofList {items items' : List α}
    (alike : List.Forall₂ related items items') :
    Alike rules rules' related ticks (.ofList items) (.ofList items') := by
  induction alike with
  | nil => exact .nil
  | cons heads _ onRests => exact .cons heads onRests

/-- Merging keeps streams alike. -/
theorem merge {ticks : Nat} {left left' right right' : Stream ι κ α}
    (lefts : Alike rules rules' related ticks left left')
    (rights : Alike rules rules' related ticks right right') :
    Alike rules rules' related ticks (left.merge right)
      (left'.merge right') := by
  match ticks, left, left', lefts with
  | _, _, _, .nil => exact rights
  | ticks, .cons a left, .cons a' left', .cons heads rests =>
      rw [merge_cons, merge_cons]
      exact .cons heads (rights.merge rests)
  | _, _, _, .unforced =>
      rw [merge_delay, merge_delay]
      exact .unforced
  | ticks + 1, .delay suspension, .delay suspension', .forced fatal values =>
      rw [merge_delay, merge_delay]
      have turned := (rights.mono id (Nat.le_succ ticks)).merge values
      refine .forced ?_ ?_
      · simpa only [Suspension.force_merge, Traced.events_map] using fatal
      · simpa only [Suspension.force_merge, Traced.value_map] using turned
termination_by (ticks, left.mature.length + right.mature.length)

/-- Binding keeps streams alike if the results for related elements are. -/
theorem bindWith (alike : Alike rules rules' related ticks s s')
    {f f' : α → Traced ε (Stream ι κ α)} (continuation continuation' : κ)
    (now : ∀ {a a'}, related a a' →
      Traced.Alike rules rules' related' ticks (f a) (f' a'))
    (later : ∀ fewer < ticks, ∀ {a a'}, related a a' →
      Traced.Alike rules rules' related' fewer (rules.apply continuation a)
        (rules'.apply continuation' a')) :
    Traced.Alike rules rules' related' ticks (s.bindWith f continuation)
      (s'.bindWith f' continuation') := by
  induction alike generalizing f f' with
  | nil => exact ⟨rfl, .nil⟩
  | @cons ticks a a' rest rest' heads _ onRests =>
      obtain ⟨fatal, values⟩ := onRests now later
      rw [events_bindWith, events_bindWith] at fatal
      constructor
      · rw [events_bindWith, events_bindWith, mature_cons, mature_cons,
          List.flatMap_cons, List.flatMap_cons, List.any_append,
          List.any_append, (now heads).fatal, fatal]
      · rw [value_bindWith_cons, value_bindWith_cons]
        exact (now heads).values.merge values
  | unforced => exact ⟨rfl, .unforced⟩
  | @forced ticks suspension suspension' fatal _ onValues =>
      have bound := onValues (later ticks (Nat.lt_succ_self ticks))
        fun fewer less => later fewer (Nat.lt_succ_of_lt less)
      refine ⟨rfl, .forced ?_ ?_⟩
      · rw [Suspension.force_bind, Suspension.force_bind, Traced.events_bind,
          Traced.events_bind, List.any_append, List.any_append, fatal]
        exact congrArg _ bound.fatal
      · rw [Suspension.force_bind, Suspension.force_bind, Traced.value_bind,
          Traced.value_bind]
        exact bound.values

/-- What is seen of one stream is related to what is seen of the other. -/
theorem exists_sight (alike : Alike rules rules' related ticks s s') {n : Nat}
    (early : n ≤ ticks) {seen : Sight α}
    (shown : s.sight rules n = some seen) :
    ∃ seen', s'.sight rules' n = some seen' ∧
      Sight.Related related seen seen' := by
  induction alike generalizing n with
  | nil =>
      rw [sight_of_next_none rfl] at shown
      cases shown
  | @cons ticks a a' rest rest' heads _ onRests =>
      cases n with
      | zero =>
          obtain rfl := Option.some.inj shown
          exact ⟨_, rfl, .yield heads⟩
      | succ n => exact onRests (Nat.le_of_succ_le early) shown
  | unforced =>
      obtain rfl := Nat.le_zero.1 early
      obtain rfl := Option.some.inj shown
      exact ⟨_, rfl, .tick⟩
  | forced _ _ onValues =>
      cases n with
      | zero =>
          obtain rfl := Option.some.inj shown
          exact ⟨_, rfl, .tick⟩
      | succ n => exact onValues (Nat.le_of_succ_le_succ early) shown

end Stream.Alike

end Relational
