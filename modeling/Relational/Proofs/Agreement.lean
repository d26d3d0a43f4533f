/-
Module: Relational.Proofs.Agreement
Purpose: Whoever collects elements from streams that are alike makes the same
  steps in both and finds related elements.
Main exports: Stream.Alike.symm, Stream.Alike.trans, Stream.Alike.sight,
  Stream.SameUnfolding.alike, Stream.HaltsAfter.alike, Harvest.Related,
  Stream.Agree, Stream.agree_of_alike, Stream.SameUnfolding.takeReturns_iff
-/
import Relational.Proofs.Alike
import Relational.Proofs.Halting
import Relational.Proofs.StreamRecursion

namespace Relational

/-!
A collection looks at a stream in no other way than by making steps.  So it
cannot tell apart streams that are alike: it comes to its end after the same
number of steps, with the same number of suspensions forced, and the elements
that it has found are related one by one.
-/

/-- The elements are related one by one, and as many suspensions were forced for
them until the collections ended in the same way. -/
structure Harvest.Related {α : Type} (related : α → α → Prop)
    (harvest harvest' : Harvest α) : Prop where
  items : List.Forall₂ related harvest.items harvest'.items
  forced : harvest.forced = harvest'.forced
  ending : harvest.ending = harvest'.ending

namespace Stream

variable {ε ι κ α : Type} {rules rules' rules'' : Rules ε ι κ α}
  {related related' joined : α → α → Prop} {ticks : Nat}
  {s s' s'' : Stream ι κ α}

/-! ### Turning around, joining and restricting -/

namespace Alike

theorem symm (alike : Alike rules rules' related ticks s s')
    (turned : ∀ {a a'}, related a a' → related' a' a) :
    Alike rules' rules related' ticks s' s := by
  induction alike with
  | nil => exact .nil
  | cons heads _ onRests => exact .cons (turned heads) onRests
  | unforced => exact .unforced
  | forced fatal _ onValues => exact .forced fatal.symm onValues

theorem trans (first : Alike rules rules' related ticks s s')
    (second : Alike rules' rules'' related' ticks s' s'')
    (join : ∀ {a b c}, related a b → related' b c → joined a c) :
    Alike rules rules'' joined ticks s s'' := by
  induction first generalizing s'' with
  | nil =>
      cases second with
      | nil => exact .nil
  | cons heads _ onRests =>
      cases second with
      | cons heads' rests => exact .cons (join heads heads') (onRests rests)
  | unforced =>
      cases second with
      | unforced => exact .unforced
  | forced fatal _ onValues =>
      cases second with
      | forced fatal' values =>
          exact .forced (fatal.trans fatal') (onValues values)

/-- The streams show related things at a position, or both have ended before
it. -/
theorem sight (alike : Alike rules rules' related ticks s s') {n : Nat}
    (early : n ≤ ticks) :
    Option.Rel (Sight.Related related) (s.sight rules n)
      (s'.sight rules' n) := by
  cases shown : s.sight rules n with
  | some seen =>
      obtain ⟨seen', shown', relation⟩ := alike.exists_sight early shown
      rw [shown']
      exact .some relation
  | none =>
      cases shown' : s'.sight rules' n with
      | none => exact .none
      | some seen' =>
          have turned : Alike rules' rules (flip related) ticks s' s :=
            alike.symm id
          obtain ⟨seen, contrary, _⟩ := turned.exists_sight early shown'
          rw [shown] at contrary
          cases contrary

end Alike

namespace SameUnfolding

theorem symm (same : s.SameUnfolding rules s') : s'.SameUnfolding rules s :=
  fun n => ⟨(same n).1.symm, (same n).2.symm⟩

theorem trans (same : s.SameUnfolding rules s')
    (same' : s'.SameUnfolding rules s'') : s.SameUnfolding rules s'' :=
  fun n => ⟨(same n).1.trans (same' n).1, (same n).2.trans (same' n).2⟩

/-- Streams with one unfolding are alike, whatever number of suspensions is
forced. -/
theorem alike (same : s.SameUnfolding rules s') (ticks : Nat) :
    Alike rules rules Eq ticks s s' := by
  rw [sameUnfolding_iff] at same
  induction ticks using Nat.strongRecOn generalizing s s' with
  | ind ticks onFewer =>
  induction s using matureInduction generalizing s' with
  | onNil =>
      cases same 1 with
      | nil => exact .nil
  | onCons a rest onRest =>
      cases same 1 with
      | cons _ =>
          refine .cons rfl (onRest fun n => ?_)
          cases same (n + 1) with
          | cons rests => exact rests
  | onDelay suspension =>
      cases same 1 with
      | delay events _ =>
          cases ticks with
          | zero => exact .unforced
          | succ ticks =>
              refine .forced (congrArg (·.any rules.isFatal) events)
                (onFewer ticks (Nat.lt_succ_self ticks) fun n => ?_)
              cases same (n + 1) with
              | delay _ values => exact values

end SameUnfolding

/-! ### Collections -/

/-- A collection comes to its end in streams that are alike after the same
number of steps. -/
theorem HaltsAfter.alike {demand : Demand} {count steps : Nat}
    (halts : s.HaltsAfter rules demand count steps)
    (alike : ∀ ticks, Alike rules rules' related ticks s s') :
    s'.HaltsAfter rules' demand count steps ∧
      List.Forall₂ related (s.shown rules steps) (s'.shown rules' steps) ∧
      s.ticks rules steps = s'.ticks rules' steps := by
  induction halts generalizing s' with
  | satisfied met => exact ⟨.satisfied met, by simp, by simp [Stream.ticks]⟩
  | exhausted unmet =>
      cases alike 0 with
      | nil => exact ⟨.exhausted unmet, by simp, rfl⟩
  | @yield count steps a rest unmet _ onLater =>
      cases alike 0 with
      | @cons _ _ a' _ rest' heads _ =>
          have rests : ∀ ticks,
              Alike rules rules' related ticks rest rest' := by
            intro ticks
            cases alike ticks with
            | cons _ rests => exact rests
          obtain ⟨halts, elements, forced⟩ := onLater rests
          exact ⟨.yield unmet halts, .cons heads elements, by
            rw [ticks_succ_of_next rfl, ticks_succ_of_next rfl, forced]
            rfl⟩
  | @tick count steps suspension unmet calm _ onLater =>
      cases alike 1 with
      | @forced _ _ suspension' fatal _ =>
          have values : ∀ ticks, Alike rules rules' related ticks
              (suspension.force rules).value
              (suspension'.force rules').value := by
            intro ticks
            cases alike (ticks + 1) with
            | forced _ values => exact values
          obtain ⟨halts, elements, forced⟩ := onLater values
          exact ⟨.tick unmet (fatal.symm.trans calm) halts, elements, by
            rw [ticks_succ_of_next rfl, ticks_succ_of_next rfl, forced]⟩

/-- A collection that returns from one stream returns from the other. -/
theorem TakeReturns.alike {demand : Demand} {outcome : Traced ε (Harvest α)}
    (returns : s.TakeReturns rules demand outcome)
    (alike : ∀ ticks, Alike rules rules' related ticks s s') :
    ∃ outcome', s'.TakeReturns rules' demand outcome' ∧
      outcome.value.Related related outcome'.value := by
  obtain ⟨steps, halts, rfl⟩ := takeReturns_iff.1 returns
  obtain ⟨halts', elements, forced⟩ := halts.alike alike
  exact ⟨_, takeReturns_iff.2 ⟨steps, halts', rfl⟩, elements, forced,
    congrArg demand.endingAt elements.length_eq⟩

variable (rules rules' related) in
/-- Whoever consumes either stream finds what is related to what is found in the
other one, position by position and in every collection. -/
structure Agree (s s' : Stream ι κ α) : Prop where
  sights : ∀ n, Option.Rel (Sight.Related related) (s.sight rules n)
    (s'.sight rules' n)
  returns : ∀ {demand outcome}, s.TakeReturns rules demand outcome →
    ∃ outcome', s'.TakeReturns rules' demand outcome' ∧
      outcome.value.Related related outcome'.value
  returns' : ∀ {demand outcome'}, s'.TakeReturns rules' demand outcome' →
    ∃ outcome, s.TakeReturns rules demand outcome ∧
      outcome.value.Related related outcome'.value

theorem agree_of_alike
    (alike : ∀ ticks, Alike rules rules' related ticks s s') :
    Agree rules rules' related s s' where
  sights n := (alike n).sight (Nat.le_refl n)
  returns returned := returned.alike alike
  returns' returned := by
    have turned : ∀ ticks, Alike rules' rules (flip related) ticks s' s :=
      fun ticks => (alike ticks).symm id
    obtain ⟨outcome, returned, items, forced, ending⟩ := returned.alike turned
    exact ⟨outcome, returned, items.flip, forced.symm, ending.symm⟩

/-- Streams with one unfolding give the same to whoever collects from them, and
report the same on the way. -/
theorem SameUnfolding.takeReturns_iff (same : s.SameUnfolding rules s')
    {demand : Demand} {outcome : Traced ε (Harvest α)} :
    s.TakeReturns rules demand outcome ↔
      s'.TakeReturns rules demand outcome := by
  have oneWay : ∀ {s s' : Stream ι κ α}, s.SameUnfolding rules s' →
      s.TakeReturns rules demand outcome →
        s'.TakeReturns rules demand outcome := by
    intro s s' same returns
    obtain ⟨steps, halts, rfl⟩ := Stream.takeReturns_iff.1 returns
    obtain ⟨halts', elements, forced⟩ := halts.alike same.alike
    rw [List.forall₂_eq_eq_eq] at elements
    refine Stream.takeReturns_iff.2 ⟨steps, halts', ?_⟩
    rw [harvestAfter, harvestAfter, elements, forced, (same steps).2]
  exact ⟨oneWay same, oneWay same.symm⟩

end Stream

end Relational
