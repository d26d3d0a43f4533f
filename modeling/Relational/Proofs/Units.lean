/-
Module: Relational.Proofs.Units
Purpose: Goals that hold at once and goals that never hold are exact units of
  conjunctions and disjunctions.
Main exports: Stream.merge_nil_sameUnfolding, Stream.bind_singletons,
  Stream.bind_nils, Rules.Combinators.ExactUnits, Goal.units_exact
-/
import Relational.Proofs.Agreement
import Relational.Proofs.Combinators
import Relational.Proofs.Consumption
import Relational.Proofs.Indifference

namespace Relational

/-!
Merging with the empty stream and binding to singletons give the stream back,
with its suspensions where they were, although both put the rest off under
another name wherever the stream is suspended.  So a goal that holds at once can
be put into a conjunction anywhere, and a goal that never holds into a
disjunction, and nobody who consumes the search can tell.

Nothing of this depends on what the other goals are.  The laws are proved for
all combinators of goals, and plans are one case.
-/

variable {ε ι κ α : Type}

section

variable {rules : Rules ε ι κ α}

/-! ### Laws of streams -/

namespace Traced.SameUnfolding

variable {traced traced' traced'' : Traced ε (Stream ι κ α)}

theorem trans (same : traced.SameUnfolding rules traced')
    (same' : traced'.SameUnfolding rules traced'') :
    traced.SameUnfolding rules traced'' :=
  ⟨same.events.trans same'.events, same.values.trans same'.values⟩

/-- What cannot be told apart is broken off together. -/
theorem stopAt (same : traced.SameUnfolding rules traced') (test : ε → Bool) :
    (traced.stopAt test .nil).SameUnfolding rules
      (traced'.stopAt test .nil) := by
  rw [Traced.stopAt, Traced.stopAt, same.events]
  split
  · exact .refl _
  · exact same

end Traced.SameUnfolding

namespace Stream

theorem SameUnfolding.merge {left left' right right' : Stream ι κ α}
    (lefts : left.SameUnfolding rules left')
    (rights : right.SameUnfolding rules right') :
    (left.merge right).SameUnfolding rules (left'.merge right') :=
  sameUnfolding_iff.2 fun n => (lefts.sameFor n).merge (rights.sameFor n)

variable (rules) in
/-- The empty stream can be merged into a stream without effect.  If the stream
is suspended, the merge is put off, and forcing it finds the empty stream in
front. -/
theorem merge_nil_sameUnfolding (s : Stream ι κ α) :
    (s.merge .nil).SameUnfolding rules s := by
  cases s with
  | nil => exact .refl _
  | cons a rest =>
      rw [merge_cons]
      exact .refl _
  | delay suspension =>
      refine sameUnfolding_iff.2 fun n => ?_
      cases n with
      | zero => exact .unseen
      | succ n =>
          rw [merge_delay]
          refine .delay ?_ ?_
          · rw [Suspension.force_merge, Traced.events_map]
          · rw [Suspension.force_merge]
            exact .refl n _

theorem bindWith_singleton (f : α → Traced ε (Stream ι κ α)) (continuation : κ)
    (a : α) :
    ((singleton a).bindWith f continuation).SameUnfolding rules (f a) := by
  constructor
  · rw [events_bindWith, mature_singleton, List.flatMap_singleton]
  · rw [singleton, value_bindWith_cons]
    exact merge_nil_sameUnfolding rules _

/-- Binding cannot tell apart functions whose results cannot be told apart. -/
theorem bindWith_sameUnfolding {f f' : α → Traced ε (Stream ι κ α)}
    {continuation continuation' : κ}
    (now : ∀ a, (f a).SameUnfolding rules (f' a))
    (later : ∀ a, (rules.apply continuation a).SameUnfolding rules
      (rules.apply continuation' a)) (s : Stream ι κ α) :
    (s.bindWith f continuation).SameUnfolding rules
      (s.bindWith f' continuation') := by
  have events : ∀ {f f' : α → Traced ε (Stream ι κ α)} (s : Stream ι κ α),
      (∀ a, (f a).SameUnfolding rules (f' a)) →
      (s.bindWith f continuation).events =
        (s.bindWith f' continuation').events := by
    intro f f' s same
    rw [events_bindWith, events_bindWith]
    exact congrArg s.mature.flatMap (funext fun a => (same a).events)
  refine ⟨events s now, sameUnfolding_iff.2 fun n => ?_⟩
  induction n generalizing s f f' with
  | zero => exact .unseen
  | succ n earlier =>
      -- Results may be empty, so the mature part is gone through within one
      -- step.
      induction s using matureInduction with
      | onNil => exact .nil
      | onCons a rest onRest =>
          rw [value_bindWith_cons, value_bindWith_cons]
          exact ((now a).values.sameFor (n + 1)).merge onRest
      | onDelay suspension =>
          rw [value_bindWith_delay, value_bindWith_delay]
          refine .delay ?_ ?_
          · rw [Suspension.force_bind, Suspension.force_bind,
              Traced.events_bind, Traced.events_bind]
            exact congrArg _ (events _ later)
          · rw [Suspension.force_bind, Suspension.force_bind]
            exact earlier later _

/-- Binding every element to itself gives the stream back. -/
theorem bind_singletons {continuation : κ}
    (itself : ∀ a, rules.apply continuation a = .pure (.singleton a))
    (s : Stream ι κ α) :
    (s.bind rules continuation).SameUnfolding rules (.pure s) := by
  have events : ∀ s : Stream ι κ α,
      (s.bind rules continuation).events = [] := by
    intro s
    simp [events_bind, itself]
  refine ⟨events s, sameUnfolding_iff.2 fun n => ?_⟩
  induction n generalizing s with
  | zero => exact .unseen
  | succ n earlier =>
      induction s using matureInduction with
      | onNil => exact .nil
      | onCons a rest onRest =>
          rw [value_bind_cons, itself, Traced.value_pure, singleton,
            merge_cons]
          exact .cons (((merge_nil_sameUnfolding rules _).sameFor n).trans
            onRest.of_succ)
      | onDelay suspension =>
          rw [bind, value_bindWith_delay]
          refine .delay ?_ ?_
          · rw [Suspension.force_bind, Traced.events_bind, events,
              List.append_nil]
          · rw [Suspension.force_bind]
            exact earlier _

/-- Binding every element to nothing leaves the suspensions, all of them. -/
theorem bind_nils {continuation : κ}
    (nothing : ∀ a, rules.apply continuation a = .pure .nil)
    (s : Stream ι κ α) :
    (s.bind rules continuation).value.yields rules = ∅ ∧
      ((s.bind rules continuation).value.pauses rules).encard =
        (s.pauses rules).encard := by
  have onlyTicks : ∀ {n seen},
      (s.bind rules continuation).value.sight rules n = some seen →
        seen = .tick ∧
          n ∈ s.tickPlace rules continuation '' s.pauses rules := by
    intro n seen shown
    rcases exists_place_of_sight_bind shown with
      ⟨k, forced, tick, place⟩ | ⟨k, a, j, _, shown, _⟩
    · exact ⟨tick, k, forced, place⟩
    · rw [nothing, Traced.value_pure, sight_of_next_none rfl] at shown
      cases shown
  constructor
  · rw [Set.eq_empty_iff_forall_notMem]
    rintro n ⟨a, shown⟩
    cases (onlyTicks shown).1
  · have image : (s.bind rules continuation).value.pauses rules =
        s.tickPlace rules continuation '' s.pauses rules := by
      ext n
      constructor
      · exact fun shown => (onlyTicks shown).2
      · rintro ⟨k, forced, rfl⟩
        exact sight_tickPlace continuation forced
    rw [image]
    exact (tickPlace_strictMonoOn rules continuation s).injOn.encard_image

end Stream

/-! ### Units of combinators -/

namespace Rules.Combinators

variable (combinators : rules.Combinators)

/-- The goals cannot be told apart by applying them. -/
def Same (goal goal' : κ) : Prop :=
  ∀ a, (combinators.search goal a).SameUnfolding rules
    (combinators.search goal' a)

variable {combinators}

theorem Same.refl (goal : κ) : combinators.Same goal goal :=
  fun a => .refl (combinators.search goal a)

theorem Same.apply {goal goal' : κ} (same : combinators.Same goal goal')
    (a : α) :
    (rules.apply goal a).SameUnfolding rules (rules.apply goal' a) := by
  rw [combinators.apply_eq, combinators.apply_eq]
  exact (same a).stopAt rules.isFatal

variable (combinators)

theorem apply_succeed (a : α) :
    rules.apply combinators.succeed a = .pure (.singleton a) := by
  rw [combinators.apply_eq, combinators.search_succeed]
  rfl

theorem apply_fail (a : α) :
    rules.apply combinators.fail a = .pure .nil := by
  rw [combinators.apply_eq, combinators.search_fail]
  rfl

/-- The search of a conjunction whose second goal cannot come upon a fatal
event. -/
theorem search_conj_of_apply {second : κ}
    (same : ∀ a, combinators.search second a = rules.apply second a)
    (first : κ) (a : α) :
    combinators.search (combinators.conj first second) a =
      (combinators.search first a).bind fun found =>
        found.bind rules second := by
  rw [combinators.search_conj, funext same]
  rfl

theorem succeed_conj (goal : κ) :
    combinators.Same (combinators.conj combinators.succeed goal) goal := by
  intro a
  rw [combinators.search_conj, combinators.search_succeed, Traced.pure_bind]
  exact Stream.bindWith_singleton _ _ a

theorem conj_succeed (goal : κ) :
    combinators.Same (combinators.conj goal combinators.succeed) goal := by
  intro a
  rw [combinators.search_conj_of_apply fun a => (combinators.search_succeed
    a).trans (combinators.apply_succeed a).symm]
  obtain ⟨events, values⟩ := Stream.bind_singletons combinators.apply_succeed
    (combinators.search goal a).value
  refine ⟨?_, values⟩
  rw [Traced.events_bind, events]
  exact List.append_nil _

theorem conj_congr (first : κ) {second second' : κ}
    (same : combinators.Same second second') :
    combinators.Same (combinators.conj first second)
      (combinators.conj first second') := by
  intro a
  rw [combinators.search_conj, combinators.search_conj]
  obtain ⟨events, values⟩ := Stream.bindWith_sameUnfolding same same.apply
    (combinators.search first a).value
  exact ⟨congrArg (_ ++ ·) events, values⟩

theorem fail_disj (goal : κ) (a : α) :
    combinators.search (combinators.disj combinators.fail goal) a =
      combinators.search goal (combinators.side 1 a) := by
  rw [combinators.search_disj, combinators.search_fail]
  rfl

theorem disj_fail (goal : κ) (a : α) :
    (combinators.search (combinators.disj goal combinators.fail)
      a).SameUnfolding rules
        (combinators.search goal (combinators.side 0 a)) := by
  rw [combinators.search_disj, combinators.search_fail]
  exact ⟨List.append_nil _, Stream.merge_nil_sameUnfolding rules _⟩

theorem disj_congr (left : κ) {right right' : κ}
    (same : combinators.Same right right') :
    combinators.Same (combinators.disj left right)
      (combinators.disj left right') := by
  intro a
  rw [combinators.search_disj, combinators.search_disj]
  obtain ⟨events, values⟩ := same (combinators.side 1 a)
  exact ⟨congrArg (_ ++ ·) events, (Stream.SameUnfolding.refl _).merge values⟩

/-- In a conjunction with a goal that never holds, all elements of the other
goal are gone and all suspensions are there. -/
theorem conj_fail (goal : κ) (a : α) :
    (rules.apply (combinators.conj goal combinators.fail) a).value.yields
        rules = ∅ ∧
      ((rules.apply (combinators.conj goal combinators.fail) a).value.pauses
        rules).encard =
        ((rules.apply goal a).value.pauses rules).encard := by
  have events : ∀ s : Stream ι κ α,
      (s.bind rules combinators.fail).events = [] := by
    intro s
    simp [Stream.events_bind, combinators.apply_fail]
  have searched := combinators.search_conj_of_apply (fun a =>
    (combinators.search_fail a).trans (combinators.apply_fail a).symm) goal a
  rw [combinators.apply_eq, combinators.apply_eq, searched, Traced.stopAt,
    Traced.stopAt, Traced.events_bind, events, List.append_nil]
  split
  · refine ⟨?_, rfl⟩
    simp [Stream.yields, Stream.sight_of_next_none (s := Stream.nil) rfl]
  · exact Stream.bind_nils combinators.apply_fail _

/-- The laws of the two units, without what depends on where alternatives
start. -/
structure ExactUnits : Prop where
  succeed_conj : ∀ goal a, (rules.apply
    (combinators.conj combinators.succeed goal) a).SameUnfolding rules
      (rules.apply goal a)
  conj_succeed : ∀ goal a, (rules.apply
    (combinators.conj goal combinators.succeed) a).SameUnfolding rules
      (rules.apply goal a)
  fail_disj : ∀ goal a, (rules.apply
    (combinators.disj combinators.fail goal) a).SameUnfolding rules
      (rules.apply goal (combinators.side 1 a))
  disj_fail : ∀ goal a, (rules.apply
    (combinators.disj goal combinators.fail) a).SameUnfolding rules
      (rules.apply goal (combinators.side 0 a))
  conj_fail_yields : ∀ goal a, (rules.apply
    (combinators.conj goal combinators.fail) a).value.yields rules = ∅
  conj_fail_pauses : ∀ goal a, ((rules.apply
    (combinators.conj goal combinators.fail) a).value.pauses rules).encard =
      ((rules.apply goal a).value.pauses rules).encard
  conjAll_insert : ∀ before after a, (rules.apply (combinators.conjAll
    (before ++ combinators.succeed :: after)) a).SameUnfolding rules
      (rules.apply (combinators.conjAll (before ++ after)) a)
theorem exactUnits : combinators.ExactUnits where
  succeed_conj goal := (combinators.succeed_conj goal).apply
  conj_succeed goal := (combinators.conj_succeed goal).apply
  fail_disj goal a := by
    rw [combinators.apply_eq, combinators.apply_eq, combinators.fail_disj]
    exact .refl _
  disj_fail goal a := by
    rw [combinators.apply_eq, combinators.apply_eq]
    exact (combinators.disj_fail goal a).stopAt rules.isFatal
  conj_fail_yields goal a := (combinators.conj_fail goal a).1
  conj_fail_pauses goal a := (combinators.conj_fail goal a).2
  conjAll_insert before after := by
    have inserted : combinators.Same _ _ := joinAll_insert Same.refl
      combinators.succeed_conj combinators.conj_succeed combinators.conj_congr
      before after
    exact inserted.apply

/-- If the alternatives start where the disjunction starts, a goal that never
holds can be put among them anywhere. -/
theorem disjAll_insert (unmarked : ∀ index a, combinators.side index a = a)
    (before after : List κ) (a : α) :
    (rules.apply (combinators.disjAll (before ++ combinators.fail :: after))
      a).SameUnfolding rules
        (rules.apply (combinators.disjAll (before ++ after)) a) := by
  have unitFirst : ∀ goal,
      combinators.Same (combinators.disj combinators.fail goal) goal := by
    intro goal a
    rw [combinators.fail_disj, unmarked]
    exact .refl _
  have unitLast : ∀ goal,
      combinators.Same (combinators.disj goal combinators.fail) goal := by
    intro goal a
    have same := combinators.disj_fail goal a
    rwa [unmarked] at same
  have inserted : combinators.Same _ _ := joinAll_insert Same.refl unitFirst
    unitLast combinators.disj_congr before after
  exact inserted.apply a

end Rules.Combinators

end

namespace Goal

variable {program : Program} {scope : Scope}

/-- If no value differs from itself, a goal that never holds can be put into a
disjunction anywhere.  The other goals are then built at other places and
applied on branches with other choices, and neither is seen. -/
theorem alike_disjAll_insert (plainProgram : program.isPlain = true)
    (scope : Scope) {before after : List Goal}
    (plain : (before ++ after).all Goal.isPlain = true) (place place' : Place)
    (ticks : Nat) (b b' : Branch) (states : b.state.Similar b'.state) :
    Traced.Alike program.rules program.rules
      (Branch.Follows b.state.counter) ticks
      (((disjAll (before ++ .fail :: after)).build program scope place).search
        program b)
      (((disjAll (before ++ after)).build program scope place').search program
        b') := by
  -- A goal that stays is the same from one place and branch to the other.
  have elsewhere : ∀ {goal : Goal}, goal.isPlain = true →
      ∀ (place place' : Place) (c c' : Branch), c.state.Similar c'.state →
      Traced.Alike program.rules program.rules
        (Branch.Follows c.state.counter) ticks
        ((goal.build program scope place).search program c)
        ((goal.build program scope place').search program c') :=
    fun plain place place' c c' states => indifferent plainProgram ticks _ _ _
      place place' c c' plain (.refl scope) states (Nat.le_refl _)
  induction before generalizing place place' b b' with
  | nil =>
      cases after with
      | nil =>
          rw [List.nil_append, List.nil_append, disjAll, joinAll, joinAll,
            build, build, buildWithin_fail, buildWithin_fail, Plan.search_fail,
            Plan.search_fail]
          exact ⟨rfl, .nil⟩
      | cons next after =>
          have others : (disjAll (next :: after)).isPlain = true := by
            rw [isPlain, every_disjAll]
            exact plain
          rw [List.nil_append, disjAll,
            joinAll_cons _ _ _ (List.cons_ne_nil _ _), build, buildWithin_disj,
            buildWithin_fail]
          have dropped : ∀ plan : Plan,
              (Plan.disj .fail plan).search program b =
                plan.search program (b.choose 1) :=
            fun plan => program.combinators.fail_disj plan b
          rw [dropped]
          exact elsewhere others (.part 1 place) place' (b.choose 1) b' states
  | cons first before onRest =>
      rw [List.cons_append, List.all_cons, Bool.and_eq_true] at plain
      rw [List.cons_append, disjAll, joinAll_cons _ _ first (by simp), build,
        buildWithin_disj, List.cons_append]
      cases others : before ++ after with
      | nil =>
          obtain ⟨rfl, rfl⟩ := List.append_eq_nil_iff.1 others
          obtain ⟨events, values⟩ := program.combinators.disj_fail
            (first.build program scope (.part 0 place)) b
          have alone := elsewhere plain.1 (.part 0 place) place' (b.choose 0) b'
            states
          rw [List.nil_append, joinAll, buildWithin_fail]
          refine ⟨?_, (values.alike ticks).trans alone.values
            fun same follows => same ▸ follows⟩
          exact (congrArg (·.any Event.isFatal) events).trans alone.fatal
      | cons next rest =>
          rw [← others, joinAll_cons _ _ first (by simp [others]), build,
            buildWithin_disj]
          exact .disj (elsewhere plain.1 _ _ (b.choose 0) (b'.choose 0) states)
            (onRest plain.2 _ _ (b.choose 1) (b'.choose 1) states)

/-- Goals that hold at once and goals that never hold are exact units, whatever
functions the goals are.  The units cannot be seen in the unfolding of a search,
and so whoever collects from it finds the same elements after the same forced
suspensions.  A conjunction with a goal that never holds has no elements and as
many suspensions as the other goal.

Plans are such goals.  A disjunction of plans searches each of them on a branch
of its own, which starts from the same state; if no value differs from itself,
the states that are found are equal to those found without the unit. -/
theorem units_exact :
    (∀ {ε ι α γ : Type}
        (given : γ → α → Traced ε (Stream ι (Composite γ) α))
        (run : ι → Traced ε (Stream ι (Composite γ) α)) (isFatal : ε → Bool),
      (Composite.combinators given run isFatal).ExactUnits ∧
      ∀ (before after : List (Composite γ)) (a : α),
        ((Composite.rules given run isFatal).apply
          ((Composite.combinators given run isFatal).disjAll
            (before ++ .fail :: after)) a).SameUnfolding
          (Composite.rules given run isFatal)
          ((Composite.rules given run isFatal).apply
            ((Composite.combinators given run isFatal).disjAll
              (before ++ after)) a)) ∧
    (∀ program : Program, program.combinators.ExactUnits ∧
      ∀ scope goals place,
        (conjAll goals).build program scope place =
            program.combinators.conjAll (plans program scope goals place) ∧
          (disjAll goals).build program scope place =
            program.combinators.disjAll (plans program scope goals place)) ∧
    (∀ {ε ι κ α : Type} (rules : Rules ε ι κ α) (s s' : Stream ι κ α),
      s.SameUnfolding rules s' → ∀ demand outcome,
        s.TakeReturns rules demand outcome ↔
          s'.TakeReturns rules demand outcome) ∧
    ∀ (program : Program) (scope : Scope) (before after : List Goal)
        (place : Place) (s : State), program.isPlain = true →
      (before ++ after).all isPlain = true →
      Stream.Agree program.rules program.rules
        (fun b b' => b.state.eqv b'.state = true)
        ((disjAll (before ++ .fail :: after)).applyTo program scope place
          s).value
        ((disjAll (before ++ after)).applyTo program scope place s).value := by
  refine ⟨?_, ?_, ?_, ?_⟩
  · intro ε ι α γ given run isFatal
    exact ⟨(Composite.combinators given run isFatal).exactUnits,
      (Composite.combinators given run isFatal).disjAll_insert fun _ _ => rfl⟩
  · intro program
    exact ⟨program.combinators.exactUnits, fun scope goals place =>
      ⟨build_conjAll goals place, build_disjAll goals place⟩⟩
  · intro ε ι κ α rules s s' same demand outcome
    exact same.takeReturns_iff
  · intro program scope before after place s plainProgram plain
    refine Stream.agree_of_alike fun ticks => ?_
    have alike := (alike_disjAll_insert plainProgram scope plain place place
      ticks (.root s) (.root s) (.refl s)).apply
    exact alike.values.mono
      (fun follows => State.eqv_iff_similar.2 follows.states) (Nat.le_refl _)

/-- A goal that never holds stands between a goal that holds twice and one that
holds again and again.  The element behind the first suspension is found without
it as well.  A collection from the endless goal returns the same if the goal is
joined with one that holds at once. -/
theorem units_exact_between :
    (∃ b b', ((disjAll [.times 2, .fail, .always]).applyTo [] [] (.root 0)
          .empty).value.sight (Program.rules []) 3 = some (.yield b) ∧
        ((disjAll [.times 2, .always]).applyTo [] [] (.root 0)
          .empty).value.sight (Program.rules []) 3 = some (.yield b') ∧
        b.state.eqv b'.state = true) ∧
    ∀ (b : Branch) outcome,
      ((Plan.conj (always.build [] [] (.root 0)) .succeed).apply []
          b).value.TakeReturns (Program.rules []) (.upTo 3) outcome ↔
        ((always.build [] [] (.root 0)).apply [] b).value.TakeReturns
          (Program.rules []) (.upTo 3) outcome := by
  obtain ⟨_, plans, collections, insertions⟩ := units_exact
  constructor
  · have agree := (insertions [] [] [.times 2] [.always] (.root 0) .empty rfl
      rfl).sights 3
    simp only [List.cons_append, List.nil_append] at agree
    have shown : ((disjAll [.times 2, .fail, .always]).applyTo [] [] (.root 0)
        .empty).value.sight (Program.rules []) 3 =
          some (.yield ⟨.empty, [0, 1, 1]⟩) :=
      rfl
    generalize without : ((disjAll [.times 2, .always]).applyTo [] [] (.root 0)
      .empty).value.sight (Program.rules []) 3 = found at agree
    rw [shown] at agree
    cases agree with
    | some both =>
        cases both with
        | yield states => exact ⟨_, _, shown, rfl, states⟩
  · intro b outcome
    exact collections _ _ _ (((plans []).1.conj_succeed _ b).values) _ outcome

end Goal

end Relational
