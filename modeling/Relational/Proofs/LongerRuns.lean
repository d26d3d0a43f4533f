/-
Module: Relational.Proofs.LongerRuns
Purpose: A run for more answers does what a run for less does, and then more.
Main exports: Goal.RunReturns, Goal.runReturns_iff,
  Goal.runReturns_of_within, Goal.run_appends
-/
import Relational.Proofs.Freshness
import Relational.Proofs.Halting

namespace Relational

/-!
How many answers are wanted is known to the collection only, and never to the
search from which it collects.  Part of a goal is met at once, when the search
begins, and the rest of it as the search is forced; both happen in an order that
the search alone fixes.  So a run reports what its search reports at once, then
what is reported on the way to the end of the collection, and last that it has
come to its end.
-/

/-- The events of a run in front of the last one, which reports its end. -/
def Traced.eventsBeforeLast {ε α : Type} (traced : Traced ε α) : List ε :=
  traced.events.dropLast

theorem Program.eventsBeforeLast_outcome (demand : Demand)
    (search : Traced Event Search) (taken : Traced Event (Harvest Branch)) :
    (outcome demand search taken).eventsBeforeLast =
      search.events ++ taken.events := by
  rw [Traced.eventsBeforeLast, outcome, ← List.append_assoc,
    List.dropLast_concat]

namespace Goal

variable (program : Program) (scope : Scope) (place : Place) (s : State)

/-- A run of the goal from a state returns, with the given outcome. -/
def RunReturns (goal : Goal) (demand : Demand)
    (outcome : Traced Event (Harvest State)) : Prop :=
  outcome.value.ending ≠ .stopped ∧ outcome.value.ending ≠ .unfinished ∧
    ∃ fuel, program.run fuel demand (goal.build program scope place) s =
      outcome

variable {program scope place s} {goal : Goal} {demand less more : Demand}
  {outcome : Traced Event (Harvest State)}

/-- A run returns if its search begins without a fatal event and collecting from
it returns. -/
theorem runReturns_iff :
    goal.RunReturns program scope place s demand outcome ↔
      (goal.applyTo program scope place s).events.any Event.isFatal = false ∧
      ∃ taken, (goal.applyTo program scope place s).value.TakeReturns
          program.rules demand taken ∧
        outcome = Program.outcome demand (goal.applyTo program scope place s)
          taken := by
  constructor
  · rintro ⟨running, ended, fuel, rfl⟩
    obtain ⟨calm, collecting⟩ := Program.running_of_run running
    have returned := Program.run_eq_outcome calm collecting
    rw [returned] at ended
    exact ⟨calm, _, ⟨collecting, ended, fuel, rfl⟩, returned⟩
  · rintro ⟨calm, _, ⟨collecting, ended, fuel, rfl⟩, rfl⟩
    exact ⟨collecting, ended, fuel, Program.run_eq_outcome calm collecting⟩

theorem RunReturns.unique {outcome' : Traced Event (Harvest State)}
    (returns : goal.RunReturns program scope place s demand outcome)
    (returns' : goal.RunReturns program scope place s demand outcome') :
    outcome = outcome' := by
  obtain ⟨_, taken, collected, rfl⟩ := runReturns_iff.1 returns
  obtain ⟨_, taken', collected', rfl⟩ := runReturns_iff.1 returns'
  rw [collected.unique collected']

/-- The run for less answers returns if the run for more does, and its events
and answers come first in it. -/
theorem runReturns_of_within (within : less.Within more)
    (returns : goal.RunReturns program scope place s more outcome) :
    ∃ earlier, goal.RunReturns program scope place s less earlier ∧
      earlier.eventsBeforeLast <+: outcome.eventsBeforeLast ∧
      earlier.value.items <+: outcome.value.items := by
  obtain ⟨calm, taken, collected, rfl⟩ := runReturns_iff.1 returns
  obtain ⟨sooner, collected', items, _, events⟩ :=
    Stream.takeReturns_of_within within collected
  refine ⟨_, runReturns_iff.2 ⟨calm, sooner, collected', rfl⟩, ?_,
    items.map Branch.state⟩
  rw [Program.eventsBeforeLast_outcome, Program.eventsBeforeLast_outcome]
  exact (List.prefix_append_right_inj _).2 events

/-- On its way a run reports the variables that are handed out and the equations
that fail, and nothing else. -/
theorem RunReturns.reported
    (returns : goal.RunReturns program scope place s demand outcome)
    {event : Event} (member : event ∈ outcome.eventsBeforeLast) :
    (∃ x, event = .introduced x) ∨ ∃ failure, event = .failed failure := by
  obtain ⟨calm, taken, collected, rfl⟩ := runReturns_iff.1 returns
  obtain ⟨steps, halts, rfl⟩ := Stream.takeReturns_iff.1 collected
  rw [Program.eventsBeforeLast_outcome, List.mem_append] at member
  have tracks : (goal.applyTo program scope place s).Tracks program
      (goal.thread program scope place s) [] := applyTo_tracks place
  have notFatal : event.isFatal = false := by
    rcases member with atOnce | later
    · exact Bool.eq_false_iff.2 (List.any_eq_false.1 calm event atOnce)
    · exact Bool.eq_false_iff.2 (List.any_eq_false.1 halts.calm event later)
  obtain ⟨t, reports⟩ : ∃ t : Thread, t.Reports event := by
    rcases member with atOnce | later
    · obtain ⟨t, _, reports⟩ := tracks.events event atOnce
      exact ⟨t, reports⟩
    · obtain ⟨t, _, reports⟩ := tracks.value.reports later
      exact ⟨t, reports⟩
  cases reports with
  | introduced => exact Or.inl ⟨_, rfl⟩
  | outOfVariables => cases notFatal
  | failed => exact Or.inr ⟨_, rfl⟩

/-- To ask for more answers only appends work.  A run returns exactly if its
search begins without a fatal event and collecting from it returns; it reports
the variables that are handed out and the equations that fail, and last that it
has come to its end.  What a run for `m` answers reports before that comes first
in what a run for `n ≥ m` answers or for all answers reports, and its answers
come first in theirs; and it returns whenever one of them does. -/
theorem run_appends (program : Program) (goal : Goal) (scope : Scope)
    (place : Place) (s : State) :
    (∀ demand outcome,
      goal.RunReturns program scope place s demand outcome ↔
        (goal.applyTo program scope place s).events.any Event.isFatal =
          false ∧
        ∃ taken, (goal.applyTo program scope place s).value.TakeReturns
            program.rules demand taken ∧
          outcome = Program.outcome demand
            (goal.applyTo program scope place s) taken) ∧
    (∀ demand outcome,
      goal.RunReturns program scope place s demand outcome →
        outcome.events = outcome.eventsBeforeLast ++
          [Program.closing demand outcome.value] ∧
        ∀ event ∈ outcome.eventsBeforeLast,
          (∃ x, event = .introduced x) ∨
            ∃ failure, event = .failed failure) ∧
    (∀ m n shorter longer, m ≤ n →
      goal.RunReturns program scope place s (.upTo m) shorter →
      goal.RunReturns program scope place s (.upTo n) longer →
        shorter.eventsBeforeLast <+: longer.eventsBeforeLast ∧
          shorter.value.items <+: longer.value.items) ∧
    (∀ m shorter longer,
      goal.RunReturns program scope place s (.upTo m) shorter →
      goal.RunReturns program scope place s .all longer →
        shorter.eventsBeforeLast <+: longer.eventsBeforeLast ∧
          shorter.value.items <+: longer.value.items) ∧
    (∀ m n longer, m ≤ n →
      goal.RunReturns program scope place s (.upTo n) longer →
        ∃ shorter, goal.RunReturns program scope place s (.upTo m) shorter) ∧
    ∀ m longer, goal.RunReturns program scope place s .all longer →
      ∃ shorter, goal.RunReturns program scope place s (.upTo m) shorter := by
  -- Both a larger number and all answers are demands that include the smaller
  -- one.
  have appends : ∀ {less more : Demand}
      {shorter longer : Traced Event (Harvest State)}, less.Within more →
      goal.RunReturns program scope place s less shorter →
      goal.RunReturns program scope place s more longer →
        shorter.eventsBeforeLast <+: longer.eventsBeforeLast ∧
          shorter.value.items <+: longer.value.items := by
    intro less more shorter longer within returns returns'
    obtain ⟨earlier, returns'', first⟩ := runReturns_of_within within returns'
    rwa [returns.unique returns'']
  refine ⟨fun demand outcome => runReturns_iff, ?_, ?_, ?_, ?_, ?_⟩
  · intro demand outcome returns
    refine ⟨?_, fun event => returns.reported⟩
    obtain ⟨_, taken, _, rfl⟩ := runReturns_iff.1 returns
    rw [Program.eventsBeforeLast_outcome, List.append_assoc]
    rfl
  · intro m n shorter longer within
    exact appends (Demand.upTo_within within)
  · intro m shorter longer
    exact appends (Demand.within_all _)
  · intro m n longer within returns
    obtain ⟨shorter, returns', _⟩ :=
      runReturns_of_within (Demand.upTo_within within) returns
    exact ⟨shorter, returns'⟩
  · intro m longer returns
    obtain ⟨shorter, returns', _⟩ :=
      runReturns_of_within (Demand.within_all _) returns
    exact ⟨shorter, returns'⟩

/-- A variable is the empty list, or else, on demand, an equation that fails or
nothing at all is asked of it.  The failure is reported to whoever wants a
second answer only. -/
theorem run_appends_suspended :
    ∃ (goal : Goal) (x : Var) (one two all : Traced Event (Harvest State)),
      goal = .fresh "x" (.disj (.eq (.name "x") (.term .nil)) (.suspend
        (.disj (.eq (.term .nil) (.pair (.name "x") (.name "x")))
          .succeed))) ∧
      goal.RunReturns [] [] (.root 0) .empty (.upTo 1) one ∧
      goal.RunReturns [] [] (.root 0) .empty (.upTo 2) two ∧
      goal.RunReturns [] [] (.root 0) .empty .all all ∧
      one.events = [.introduced x, .took 1 1 0] ∧
      two.events = [.introduced x,
        .failed (.mismatch .nil (.pair (.var x) (.var x))), .took 2 2 1] ∧
      one.eventsBeforeLast <+: two.eventsBeforeLast ∧
      one.value.items <+: two.value.items ∧
      one.eventsBeforeLast <+: all.eventsBeforeLast ∧
      one.value.items <+: all.value.items := by
  let x : Var := ⟨0, by decide⟩
  let goal : Goal :=
    .fresh "x" (.disj (.eq (.name "x") (.term .nil)) (.suspend
      (.disj (.eq (.term .nil) (.pair (.name "x") (.name "x"))) .succeed)))
  let failed : Event := .failed (.mismatch .nil (.pair (.var x) (.var x)))
  let bound : State := ⟨Substitution.empty.prepend ⟨x, .nil⟩, 1⟩
  let free : State := ⟨.empty, 1⟩
  have one : goal.RunReturns [] [] (.root 0) .empty (.upTo 1)
      ⟨⟨[bound], 0, .satisfied⟩, [.introduced x, .took 1 1 0]⟩ :=
    ⟨by simp, by simp, 2, by cbv⟩
  have two : goal.RunReturns [] [] (.root 0) .empty (.upTo 2)
      ⟨⟨[bound, free], 1, .satisfied⟩,
        [.introduced x, failed, .took 2 2 1]⟩ :=
    ⟨by simp, by simp, 4, by cbv⟩
  have all : goal.RunReturns [] [] (.root 0) .empty .all
      ⟨⟨[bound, free], 1, .exhausted⟩,
        [.introduced x, failed, .tookAll 2 1]⟩ :=
    ⟨by simp, by simp, 4, by cbv⟩
  obtain ⟨_, _, appends, appendsAll, _⟩ :=
    run_appends [] goal [] (.root 0) .empty
  have first := appends 1 2 _ _ (by decide) one two
  have firstOfAll := appendsAll 1 _ _ one all
  exact ⟨goal, x, _, _, _, rfl, one, two, all, rfl, rfl, first.1, first.2,
    firstOfAll.1, firstOfAll.2⟩

end Goal

end Relational
