/-
Module: Relational.Proofs.StreamRecursion
Purpose: The recursion by which merging and binding are specified has one
  solution, and the loops along the mature part compute it.
Main exports: Stream.SameUnfolding, Traced.SameUnfolding, Stream.SameFor,
  Stream.sameUnfolding_iff, Stream.Recursion, Stream.Recursion.merge_sameFor,
  Stream.Recursion.bind_events, Stream.Recursion.bind_sameFor,
  Stream.recursion_loops, Stream.loops_solve_recursion
-/
import Relational.Proofs.Unfolding

namespace Relational

/-!
Merging and binding are specified by three equations each, one for every shape
of the stream they look at.  They are computed by loops, which run along the
whole mature part before they build anything.  The loops solve the equations,
and whatever else solves the equations cannot be told apart from them.

Streams are compared by their whole unfolding, with what is reported while they
are forced.  So the equations say more than which elements there are: they fix
where the suspensions stand, and in which order a continuation is applied to the
elements of the mature part.
-/

variable {ε ι κ α : Type} (rules : Rules ε ι κ α)

/-- The streams show the same at every position, and the same has been reported
until it is reached. -/
def Stream.SameUnfolding (s s' : Stream ι κ α) : Prop :=
  ∀ n, s.sight rules n = s'.sight rules n ∧
    s.reports rules n = s'.reports rules n

/-- The same has been reported on the way to streams with one unfolding. -/
structure Traced.SameUnfolding (traced traced' : Traced ε (Stream ι κ α)) :
    Prop where
  events : traced.events = traced'.events
  values : traced.value.SameUnfolding rules traced'.value

variable {rules} in
theorem Stream.SameUnfolding.refl (s : Stream ι κ α) :
    s.SameUnfolding rules s :=
  fun _ => ⟨rfl, rfl⟩

variable {rules} in
theorem Traced.SameUnfolding.refl (traced : Traced ε (Stream ι κ α)) :
    traced.SameUnfolding rules traced :=
  ⟨rfl, .refl _⟩

namespace Stream

/-! ### Unfolding step by step -/

/-- The streams cannot be told apart in so many steps. -/
inductive SameFor : Nat → Stream ι κ α → Stream ι κ α → Prop where
  | unseen {s s' : Stream ι κ α} : SameFor 0 s s'
  | nil {n : Nat} : SameFor n .nil .nil
  | cons {n : Nat} {a : α} {rest rest' : Stream ι κ α}
      (rests : SameFor n rest rest') :
      SameFor (n + 1) (.cons a rest) (.cons a rest')
  | delay {n : Nat} {suspension suspension' : Suspension ι κ α}
      (events : (suspension.force rules).events =
        (suspension'.force rules).events)
      (values : SameFor n (suspension.force rules).value
        (suspension'.force rules).value) :
      SameFor (n + 1) (.delay suspension) (.delay suspension')

variable {rules}

namespace SameFor

theorem refl (n : Nat) (s : Stream ι κ α) : SameFor rules n s s := by
  induction n generalizing s with
  | zero => exact .unseen
  | succ n earlier =>
      cases s with
      | nil => exact .nil
      | cons a rest => exact .cons (earlier rest)
      | delay suspension => exact .delay rfl (earlier _)

theorem trans {n : Nat} {s s' s'' : Stream ι κ α}
    (first : SameFor rules n s s') (second : SameFor rules n s' s'') :
    SameFor rules n s s'' := by
  induction first generalizing s'' with
  | unseen => exact .unseen
  | nil => exact second
  | cons _ onRests =>
      cases second with
      | cons rests => exact .cons (onRests rests)
  | delay events _ onValues =>
      cases second with
      | delay events' values =>
          exact .delay (events.trans events') (onValues values)

theorem of_succ {n : Nat} {s s' : Stream ι κ α}
    (same : SameFor rules (n + 1) s s') : SameFor rules n s s' := by
  induction n generalizing s s' with
  | zero => exact .unseen
  | succ n earlier =>
      cases same with
      | nil => exact .nil
      | cons rests => exact .cons (earlier rests)
      | delay events values => exact .delay events (earlier values)

/-- Merging takes as many steps as it shows, so it keeps streams the same for
any number of steps. -/
theorem merge {n : Nat} {left left' right right' : Stream ι κ α}
    (lefts : SameFor rules n left left')
    (rights : SameFor rules n right right') :
    SameFor rules n (left.merge right) (left'.merge right') := by
  induction n generalizing left left' right right' with
  | zero => exact .unseen
  | succ n earlier =>
      cases lefts with
      | nil => exact rights
      | cons rests =>
          rw [merge_cons, merge_cons]
          exact .cons (earlier rights.of_succ rests)
      | delay events values =>
          rw [merge_delay, merge_delay]
          refine .delay ?_ ?_
          · rw [Suspension.force_merge, Suspension.force_merge]
            exact events
          · rw [Suspension.force_merge, Suspension.force_merge]
            exact earlier rights.of_succ values

theorem sight {n m : Nat} {s s' : Stream ι κ α} (same : SameFor rules n s s')
    (early : m < n) : s.sight rules m = s'.sight rules m := by
  induction same generalizing m with
  | unseen => cases early
  | nil => rfl
  | cons _ onRests =>
      cases m with
      | zero => rfl
      | succ m => exact onRests (Nat.lt_of_succ_lt_succ early)
  | delay _ _ onValues =>
      cases m with
      | zero => rfl
      | succ m => exact onValues (Nat.lt_of_succ_lt_succ early)

theorem reports {n m : Nat} {s s' : Stream ι κ α}
    (same : SameFor rules n s s') (early : m ≤ n) :
    s.reports rules m = s'.reports rules m := by
  induction same generalizing m with
  | unseen =>
      obtain rfl := Nat.le_zero.1 early
      simp [Stream.reports]
  | nil => rfl
  | cons _ onRests =>
      cases m with
      | zero => rfl
      | succ m => exact onRests (Nat.le_of_succ_le_succ early)
  | delay events _ onValues =>
      cases m with
      | zero => rfl
      | succ m =>
          rw [Stream.reports, Stream.reports, events,
            onValues (Nat.le_of_succ_le_succ early)]

end SameFor

theorem SameUnfolding.sameFor {s s' : Stream ι κ α}
    (same : s.SameUnfolding rules s') (n : Nat) : SameFor rules n s s' := by
  induction n generalizing s s' with
  | zero => exact .unseen
  | succ n earlier =>
      have first := (same 0).1
      cases s with
      | nil =>
          cases s' with
          | nil => exact .nil
          | cons b rest' => cases first
          | delay suspension' => cases first
      | cons a rest =>
          cases s' with
          | nil => cases first
          | cons b rest' =>
              obtain rfl : a = b := by simpa [sight, next] using first
              exact .cons (earlier fun m => same (m + 1))
          | delay suspension' => cases first
      | delay suspension =>
          cases s' with
          | nil => cases first
          | cons b rest' => cases first
          | delay suspension' =>
              -- What the first forcing reports is all that has been reported
              -- when the position after it is reached.
              have events : (suspension.force rules).events =
                  (suspension'.force rules).events := by
                simpa [Stream.reports] using (same 1).2
              refine .delay events (earlier fun m => ⟨(same (m + 1)).1, ?_⟩)
              have later := (same (m + 1)).2
              rw [Stream.reports, Stream.reports, events] at later
              exact List.append_cancel_left later

theorem sameUnfolding_iff {s s' : Stream ι κ α} :
    s.SameUnfolding rules s' ↔ ∀ n, SameFor rules n s s' := by
  constructor
  · exact SameUnfolding.sameFor
  · intro same n
    exact ⟨(same (n + 1)).sight (Nat.lt_succ_self n),
      (same n).reports (Nat.le_refl n)⟩

/-! ### The equations and their solution -/

theorem events_bind_cons (continuation : κ) (a : α) (rest : Stream ι κ α) :
    ((Stream.cons a rest).bind rules continuation).events =
      (rules.apply continuation a).events ++
        (rest.bind rules continuation).events := by
  rw [events_bind, events_bind, mature_cons, List.flatMap_cons]

variable (rules) in
/-- The equations of merging and binding.  Where an operation is put off, it is
a suspension, and forcing that gives what the operation makes of the forced
stream. -/
structure Recursion (merge : Stream ι κ α → Stream ι κ α → Stream ι κ α)
    (bind : Stream ι κ α → κ → Traced ε (Stream ι κ α)) : Prop where
  merge_nil (right : Stream ι κ α) :
    (merge .nil right).SameUnfolding rules right
  merge_cons (a : α) (rest right : Stream ι κ α) :
    (merge (.cons a rest) right).SameUnfolding rules
      (.cons a (merge right rest))
  merge_delay (suspension : Suspension ι κ α) (right : Stream ι κ α) :
    ∃ later, merge (.delay suspension) right = .delay later ∧
      (later.force rules).SameUnfolding rules
        ((suspension.force rules).map (merge right))
  bind_nil (continuation : κ) :
    (bind .nil continuation).SameUnfolding rules (.pure .nil)
  bind_cons (a : α) (rest : Stream ι κ α) (continuation : κ) :
    (bind (.cons a rest) continuation).SameUnfolding rules
      ((rules.apply continuation a).bind fun first =>
        (bind rest continuation).map (merge first))
  bind_delay (suspension : Suspension ι κ α) (continuation : κ) :
    ∃ later, bind (.delay suspension) continuation = .pure (.delay later) ∧
      (later.force rules).SameUnfolding rules
        ((suspension.force rules).bind fun s => bind s continuation)

namespace Recursion

variable {merge : Stream ι κ α → Stream ι κ α → Stream ι κ α}
  {bind : Stream ι κ α → κ → Traced ε (Stream ι κ α)}

/-- Whatever solves the equations merges as the loop does. -/
theorem merge_sameFor (solves : Recursion rules merge bind) (n : Nat)
    (left right : Stream ι κ α) :
    SameFor rules n (merge left right) (left.merge right) := by
  induction n generalizing left right with
  | zero => exact .unseen
  | succ n earlier =>
      cases left with
      | nil => exact (solves.merge_nil right).sameFor (n + 1)
      | cons a rest =>
          rw [Stream.merge_cons]
          exact ((solves.merge_cons a rest right).sameFor (n + 1)).trans
            (.cons (earlier right rest))
      | delay suspension =>
          obtain ⟨later, delayed, forced⟩ := solves.merge_delay suspension right
          rw [delayed, Stream.merge_delay]
          refine .delay ?_ ?_
          · rw [forced.events, Suspension.force_merge]
            rfl
          · rw [Suspension.force_merge]
            exact (forced.values.sameFor n).trans (earlier right _)

/-- Whatever solves the equations applies a continuation to the mature elements
in the order in which the loop does. -/
theorem bind_events (solves : Recursion rules merge bind) (s : Stream ι κ α)
    (continuation : κ) :
    (bind s continuation).events = (s.bind rules continuation).events := by
  induction s using matureInduction with
  | onNil => exact (solves.bind_nil continuation).events
  | onCons a rest onRest =>
      rw [(solves.bind_cons a rest continuation).events, Traced.events_bind,
        Traced.events_map, onRest, events_bind_cons]
  | onDelay suspension =>
      obtain ⟨later, delayed, _⟩ := solves.bind_delay suspension continuation
      rw [delayed]
      rfl

/-- Whatever solves the equations binds as the loop does. -/
theorem bind_sameFor (solves : Recursion rules merge bind) (n : Nat)
    (s : Stream ι κ α) (continuation : κ) :
    SameFor rules n (bind s continuation).value
      (s.bind rules continuation).value := by
  induction n generalizing s with
  | zero => exact .unseen
  | succ n earlier =>
      -- A result that is empty takes no step, so along the mature part it is
      -- the stream that becomes smaller, and not the number of steps.
      induction s using matureInduction with
      | onNil => exact (solves.bind_nil continuation).values.sameFor (n + 1)
      | onCons a rest onRest =>
          have split := (solves.bind_cons a rest continuation).values
          have merged := solves.merge_sameFor (n + 1)
            (rules.apply continuation a).value (bind rest continuation).value
          rw [value_bind_cons]
          exact (split.sameFor (n + 1)).trans
            (merged.trans ((SameFor.refl _ _).merge onRest))
      | onDelay suspension =>
          obtain ⟨later, delayed, forced⟩ :=
            solves.bind_delay suspension continuation
          rw [delayed, Stream.bind, value_bindWith_delay]
          refine .delay ?_ ?_
          · rw [forced.events, Suspension.force_bind, Traced.events_bind,
              Traced.events_bind, solves.bind_events]
          · rw [Suspension.force_bind]
            exact (forced.values.sameFor n).trans (earlier _)

end Recursion

/-- The loops solve the equations. -/
theorem recursion_loops :
    Recursion rules Stream.merge fun s continuation =>
      s.bind rules continuation where
  merge_nil right := .refl right
  merge_cons a rest right := by
    rw [merge_cons]
    exact .refl _
  merge_delay suspension right :=
    ⟨.merge right suspension, rfl, by
      rw [Suspension.force_merge]
      exact .refl _⟩
  bind_nil continuation := .refl _
  bind_cons a rest continuation := by
    constructor
    · exact events_bind_cons continuation a rest
    · rw [value_bind_cons]
      exact .refl _
  bind_delay suspension continuation :=
    ⟨.bind suspension continuation, rfl, by
      rw [Suspension.force_bind]
      exact .refl _⟩

variable (rules) in
/-- The loops along the mature part solve the equations by which merging and
binding are specified.  A continuation is applied to the mature elements from
the first to the last.  Whatever solves the equations has the same unfolding and
reports the same in the same order. -/
theorem loops_solve_recursion :
    Recursion rules Stream.merge
      (fun s continuation => s.bind rules continuation) ∧
    (∀ (s : Stream ι κ α) continuation, (s.bind rules continuation).events =
      s.mature.flatMap fun a => (rules.apply continuation a).events) ∧
    ∀ merge bind, Recursion rules merge bind →
      (∀ left right,
        (merge left right).SameUnfolding rules (left.merge right)) ∧
      ∀ s continuation,
        (bind s continuation).SameUnfolding rules
          (s.bind rules continuation) := by
  refine ⟨recursion_loops, fun s continuation => events_bind continuation s,
    fun merge bind solves => ⟨?_, ?_⟩⟩
  · intro left right
    exact sameUnfolding_iff.2 fun n => solves.merge_sameFor n left right
  · intro s continuation
    exact ⟨solves.bind_events s continuation,
      sameUnfolding_iff.2 fun n => solves.bind_sameFor n s continuation⟩

end Stream

end Relational
