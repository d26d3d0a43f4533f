/-
Module: Relational.Proofs.Supply
Purpose: As long as there are variables left, forcing a search shows what its
  plan describes.
Main exports: Program.described, Suspension.force_eq_described,
  Stream.sight_described, Traced.Calm.sight_described
-/
import Relational.Goal.Run
import Relational.Proofs.Unfolding

namespace Relational

/-!
A search is broken off where the variables run out, together with everything
that was under way at that moment.  What a plan describes is easier to reason
about: there only the branch ends that asks for the variable.  The two agree up
to the first report that there was no variable left, so whatever is said of the
search that plans describe holds of the search that runs until then.
-/

/-- The rules of the searches that plans describe. -/
def Program.described (program : Program) : Rules Event Task Plan Branch where
  run task := (task.body.build program).search program task.branch
  apply plan b := plan.search program b
  isFatal := Event.isFatal

/-- A search that reports no shortage of variables was not broken off. -/
theorem Plan.apply_eq_search_of_calm {program : Program} {plan : Plan}
    {b : Branch}
    (calm : (plan.apply program b).events.any Event.isFatal = false) :
    plan.apply program b = plan.search program b := by
  rw [apply_eq_stopAt] at calm ⊢
  exact Traced.stopAt_eq_self_of_stopAt calm

/-- A continuation whose events are calm on all mature elements gives what it
describes. -/
theorem Stream.bind_eq_described {program : Program} {s : Search} {plan : Plan}
    (calm : (s.bind program.rules plan).events.any Event.isFatal = false) :
    s.bind program.rules plan = s.bind program.described plan := by
  refine bindWith_congr ?_ plan
  intro b member
  rw [Stream.events_bind, List.any_flatMap, List.any_eq_false] at calm
  have quiet := calm b member
  rw [Bool.not_eq_true] at quiet
  exact Plan.apply_eq_search_of_calm quiet

theorem Suspension.force_eq_described {program : Program} :
    ∀ suspension : Suspension Task Plan Branch,
      (suspension.force program.rules).events.any Event.isFatal = false →
        suspension.force program.rules = suspension.force program.described
  | .task i, calm => by
      rw [force_task] at calm
      rw [force_task, force_task]
      exact Plan.apply_eq_search_of_calm calm
  | .merge other source, calm => by
      rw [force_merge, Traced.events_map] at calm
      rw [force_merge, force_merge, force_eq_described source calm]
  | .bind source plan, calm => by
      rw [force_bind, Traced.events_bind, List.any_append,
        Bool.or_eq_false_iff] at calm
      rw [force_bind, force_bind, ← force_eq_described source calm.1,
        Traced.bind, Traced.bind, Stream.bind_eq_described calm.2]
  | .map f source, calm => by
      rw [force_map, Traced.events_map] at calm
      rw [force_map, force_map, force_eq_described source calm]

/-- Up to the first report of a shortage, a stream shows what it describes. -/
theorem Stream.sight_described {program : Program} {s : Search} {n : Nat}
    (calm : (s.reports program.rules n).any Event.isFatal = false) :
    s.sight program.rules n = s.sight program.described n := by
  induction n generalizing s with
  | zero =>
      cases s with
      | nil => rfl
      | cons b rest => rfl
      | delay suspension => rfl
  | succ n earlier =>
      cases s with
      | nil => rfl
      | cons b rest =>
          change rest.sight program.rules n = rest.sight program.described n
          exact earlier calm
      | delay suspension =>
          rw [reports, List.any_append, Bool.or_eq_false_iff] at calm
          rcases calm with ⟨atOnce, later⟩
          have same := suspension.force_eq_described atOnce
          change (suspension.force program.rules).value.sight program.rules n =
            (suspension.force program.described).value.sight
              program.described n
          rw [← same]
          exact earlier later

/-- A stream that never reports a shortage describes none. -/
theorem Stream.not_stops_described {program : Program} {s : Search}
    (calm : ∀ n, (s.reports program.rules n).any Event.isFatal = false) :
    ¬ s.Stops program.described := by
  intro stops
  induction stops with
  | @here suspension fatal =>
      have quiet := calm 1
      rw [reports, reports, List.append_nil] at quiet
      rw [← suspension.force_eq_described quiet] at fatal
      rw [show program.described.isFatal = Event.isFatal from rfl, quiet]
        at fatal
      cases fatal
  | @later s rest seen step stops onRest =>
      apply onRest
      intro n
      have quiet := calm (n + 1)
      cases s with
      | nil => simp [next] at step
      | cons b rest =>
          simp only [next, Option.some.injEq, Prod.mk.injEq] at step
          rcases step with ⟨_, rfl⟩
          exact quiet
      | delay suspension =>
          simp only [next, Option.some.injEq, Prod.mk.injEq] at step
          rcases step with ⟨_, rfl⟩
          rw [reports, List.any_append, Bool.or_eq_false_iff] at quiet
          rw [← suspension.force_eq_described quiet.1]
          exact quiet.2

/-- Up to the first report of a shortage, applying a plan shows what the plan
describes. -/
theorem Traced.Calm.sight_described {program : Program} {plan : Plan}
    {b : Branch} {n : Nat}
    (calm : (plan.apply program b).Calm program.rules n) :
    (plan.apply program b).value.sight program.rules n =
      (plan.search program b).value.sight program.described n := by
  rw [Traced.Calm, List.any_append, Bool.or_eq_false_iff] at calm
  rcases calm with ⟨atOnce, later⟩
  rw [Stream.sight_described later, Plan.apply_eq_search_of_calm atOnce]

/-- A search that never reports a shortage describes none. -/
theorem Plan.not_stops_of_calm {program : Program} {plan : Plan} {b : Branch}
    (calm : ∀ n, (plan.apply program b).Calm program.rules n) :
    ¬ (plan.search program b).Stops program.described := by
  have parted : ∀ n,
      (plan.apply program b).events.any Event.isFatal = false ∧
        ((plan.apply program b).value.reports program.rules n).any
          Event.isFatal = false := by
    intro n
    have quiet := calm n
    rw [Traced.Calm, List.any_append, Bool.or_eq_false_iff] at quiet
    exact quiet
  have same := apply_eq_search_of_calm (parted 0).1
  rw [← same]
  intro stops
  rcases stops with atOnce | later
  · exact Bool.false_ne_true ((parted 0).1.symm.trans atOnce)
  · exact Stream.not_stops_described (fun n => (parted n).2) later

end Relational
