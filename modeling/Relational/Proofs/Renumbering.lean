/-
Module: Relational.Proofs.Renumbering
Purpose: A search does not depend on how its variables are numbered.
Main exports: Renumbering, State.Renumbered, Stream.Renumbered,
  Plan.search_renumbered, Suspension.force_renumbered,
  Stream.Renumbered.sight, Stream.Renumbered.collectFrom,
  Goal.applyTo_renumbered
-/
import Relational.Proofs.Alike
import Relational.Proofs.Equivariance
import Relational.Proofs.Threads

namespace Relational

/-!
Two searches of one goal may begin at different counters, with variables that
have different numbers.  Then they hand out different variables, but they do so
at the same moments, and the numbers of these variables stay as far apart as the
counters were.  So one renaming of variables, chosen at the beginning, leads
from everything in the first search to what is at the same place in the second.

The variables may run out in one search and not in the other.  Whatever is said
of the two is said as long as neither is short of variables.
-/

/-! ### Two searches in step -/

/-- A renaming that keeps variables apart and takes the variables that one
search hands out to those that another one hands out, in order. -/
structure Renumbering where
  /-- The counter from which the first search begins. -/
  start : Nat
  /-- The counter from which the second search begins. -/
  target : Nat
  map : Var → Var
  injective : Function.Injective map
  shifts : ∀ (x y : Var) (index : Nat), x.id = start + index →
    y.id = target + index → map x = y

/-- The substitution is the renamed one, and the counters have come equally
far. -/
structure State.Renumbered (ρ : Renumbering) (s s' : State) : Prop where
  substitution : s'.substitution = s.substitution.rename ρ.map
  counters : ∃ index,
    s.counter = ρ.start + index ∧ s'.counter = ρ.target + index

/-- The states belong together, and the same choices led to them. -/
structure Branch.Renumbered (ρ : Renumbering) (b b' : Branch) : Prop where
  state : b.state.Renumbered ρ b'.state
  choices : b'.choices = b.choices

/-- The body is the renamed one, and the branches belong together. -/
structure Task.Renumbered (ρ : Renumbering) (task task' : Task) : Prop where
  body : task'.body = task.body.rename ρ.map
  branch : task.branch.Renumbered ρ task'.branch

mutual

/-- The streams have the same shape, and what they hold belongs together. -/
inductive Stream.Renumbered (ρ : Renumbering) : Search → Search → Prop where
  | nil : Stream.Renumbered ρ .nil .nil
  | cons {b b' : Branch} {rest rest' : Search} (head : b.Renumbered ρ b')
      (tail : Stream.Renumbered ρ rest rest') :
      Stream.Renumbered ρ (.cons b rest) (.cons b' rest')
  | delay {suspension suspension' : Suspension Task Plan Branch}
      (inside : Suspension.Renumbered ρ suspension suspension') :
      Stream.Renumbered ρ (.delay suspension) (.delay suspension')

/-- The suspensions have the same shape, and what they hold belongs
together. -/
inductive Suspension.Renumbered (ρ : Renumbering) :
    Suspension Task Plan Branch → Suspension Task Plan Branch → Prop where
  | task {postponed postponed' : Task}
      (inside : postponed.Renumbered ρ postponed') :
      Suspension.Renumbered ρ (.task postponed) (.task postponed')
  | merge {other other' : Search}
      {source source' : Suspension Task Plan Branch}
      (others : Stream.Renumbered ρ other other')
      (sources : Suspension.Renumbered ρ source source') :
      Suspension.Renumbered ρ (.merge other source) (.merge other' source')
  | bind {source source' : Suspension Task Plan Branch} {plan : Plan}
      (sources : Suspension.Renumbered ρ source source') :
      Suspension.Renumbered ρ (.bind source plan)
        (.bind source' (plan.rename ρ.map))

end

/-- Unless the variables ran out in one of the two computations, their results
belong together, and the second one reported the renamed events. -/
def Traced.Renumbered (ρ : Renumbering) (traced traced' : Traced Event Search) :
    Prop :=
  traced.events.any Event.isFatal = false →
    traced'.events.any Event.isFatal = false →
      traced.value.Renumbered ρ traced'.value ∧
        traced'.events = traced.events.map (Event.rename ρ.map)

variable {ρ : Renumbering}

theorem State.Renumbered.reify {s s' : State} (states : s.Renumbered ρ s')
    (term : Term) : s'.reify (term.rename ρ.map) = s.reify term := by
  rw [State.reify, State.reify, states.substitution,
    Substitution.reify_rename ρ.injective]

/-- The variables that are handed out belong together. -/
theorem State.Renumbered.fresh? {s s' t t' : State} {x y : Var}
    (states : s.Renumbered ρ s') (introduced : s.fresh? = some (x, t))
    (introduced' : s'.fresh? = some (y, t')) :
    ρ.map x = y ∧ t.Renumbered ρ t' := by
  obtain ⟨index, counter, counter'⟩ := states.counters
  obtain ⟨sameId, rfl⟩ := State.fresh?_eq_some_iff.1 introduced
  obtain ⟨sameId', rfl⟩ := State.fresh?_eq_some_iff.1 introduced'
  refine ⟨ρ.shifts x y index (sameId.trans counter) (sameId'.trans counter'),
    states.substitution, index + 1, ?_, ?_⟩
  · rw [counter, Nat.add_assoc]
  · rw [counter', Nat.add_assoc]

theorem Branch.Renumbered.choose {b b' : Branch}
    (branches : b.Renumbered ρ b') (index : Nat) :
    (b.choose index).Renumbered ρ (b'.choose index) :=
  ⟨branches.state, congrArg (index :: ·) branches.choices⟩

namespace Stream.Renumbered

variable {s s' : Search}

theorem ofList {items items' : List Branch}
    (each : List.Forall₂ (Branch.Renumbered ρ) items items') :
    Stream.Renumbered ρ (.ofList items) (.ofList items') := by
  induction each with
  | nil => exact .nil
  | cons head _ onTail => exact .cons head onTail

theorem merge {left left' right right' : Search}
    (lefts : left.Renumbered ρ left') (rights : right.Renumbered ρ right') :
    (left.merge right).Renumbered ρ (left'.merge right') := by
  match left, left', lefts with
  | .nil, .nil, .nil => exact rights
  | .delay _, .delay _, .delay inside => exact .delay (.merge rights inside)
  | .cons b left, .cons b' left', .cons head tail =>
      rw [merge_cons, merge_cons]
      exact .cons head (merge rights tail)
termination_by left.mature.length + right.mature.length

theorem bindWith (streams : s.Renumbered ρ s') (plan : Plan)
    {f f' : Branch → Traced Event Search}
    (each : ∀ b ∈ s.mature, ∀ b', b.Renumbered ρ b' →
      (f b).Renumbered ρ (f' b')) :
    (s.bindWith f plan).Renumbered ρ (s'.bindWith f' (plan.rename ρ.map)) := by
  intro calm calm'
  rw [events_bindWith] at calm calm' ⊢
  rw [events_bindWith]
  induction s using matureInduction generalizing s' with
  | onNil =>
      cases streams
      exact ⟨.nil, rfl⟩
  | onDelay suspension =>
      cases streams with
      | delay inside => exact ⟨.delay (.bind inside), rfl⟩
  | onCons b rest onRest =>
      cases streams with
      | cons head tail =>
          rw [mature_cons, List.flatMap_cons, List.any_append,
            Bool.or_eq_false_iff] at calm calm'
          obtain ⟨here, reported⟩ :=
            each b (by simp) _ head calm.1 calm'.1
          obtain ⟨later, reportedLater⟩ := onRest tail
            (fun c member => each c (by simp [member])) calm.2 calm'.2
          rw [value_bindWith_cons, value_bindWith_cons, mature_cons,
            mature_cons, List.flatMap_cons, List.flatMap_cons, reported,
            reportedLater, List.map_append]
          exact ⟨here.merge later, rfl⟩

end Stream.Renumbered

namespace Traced.Renumbered

theorem pure {s s' : Search} (streams : s.Renumbered ρ s') :
    (Traced.pure s).Renumbered ρ (.pure s') :=
  fun _ _ => ⟨streams, rfl⟩

theorem after {traced traced' : Traced Event Search} {event event' : Event}
    (events : event' = event.rename ρ.map)
    (inside : traced.Renumbered ρ traced') :
    (traced.after event).Renumbered ρ (traced'.after event') := by
  intro calm calm'
  rw [events_after, List.any_cons, Bool.or_eq_false_iff] at calm calm'
  obtain ⟨values, reported⟩ := inside calm.2 calm'.2
  exact ⟨values, by rw [events_after, events_after, events, reported]; rfl⟩

theorem bind {traced traced' : Traced Event Search}
    {next next' : Search → Traced Event Search}
    (inside : traced.Renumbered ρ traced')
    (andThen : traced.value.Renumbered ρ traced'.value →
      (next traced.value).Renumbered ρ (next' traced'.value)) :
    (traced.bind next).Renumbered ρ (traced'.bind next') := by
  intro calm calm'
  rw [events_bind, List.any_append, Bool.or_eq_false_iff] at calm calm'
  obtain ⟨values, reported⟩ := inside calm.1 calm'.1
  obtain ⟨values', reported'⟩ := andThen values calm.2 calm'.2
  refine ⟨values', ?_⟩
  rw [events_bind, events_bind, reported, reported', List.map_append]

theorem merge {traced traced' : Traced Event Search} {found found' : Search}
    (founds : found.Renumbered ρ found')
    (inside : traced.Renumbered ρ traced') :
    (traced.map found.merge).Renumbered ρ (traced'.map found'.merge) := by
  intro calm calm'
  obtain ⟨values, reported⟩ := inside calm calm'
  exact ⟨founds.merge values, reported⟩

end Traced.Renumbered

theorem Branch.equate_renumbered {b b' : Branch} (branches : b.Renumbered ρ b')
    (left right : Term) :
    (b.equate left right).Renumbered ρ
      (b'.equate (left.rename ρ.map) (right.rename ρ.map)) := by
  rw [equate, equate, branches.state.substitution,
    Substitution.unify_rename ρ.injective]
  cases b.state.substitution.unify left right with
  | ok substitution =>
      exact .pure (.cons ⟨⟨rfl, branches.state.counters⟩, branches.choices⟩
        .nil)
  | error failure => exact .after rfl (.pure .nil)

namespace Plan

variable {program : Program}

/-- A plan and the renamed one describe searches that belong together. -/
theorem search_renumbered (left : Nat) (plan : Plan) {b b' : Branch}
    (supply : Var.capacity - b.state.counter ≤ left)
    (branches : b.Renumbered ρ b') :
    (plan.search program b).Renumbered ρ
      ((plan.rename ρ.map).search (program.rename ρ.map) b') := by
  -- As in following a path, the induction is on the variables left and then on
  -- the plan.
  induction left using Nat.strongRecOn generalizing plan b b' with
  | ind left onFewer =>
  induction plan generalizing b b' with
  | succeed =>
      rw [rename, search_succeed, search_succeed]
      exact .pure (.cons branches .nil)
  | fail =>
      rw [rename, search_fail, search_fail]
      exact .pure .nil
  | eq first second =>
      rw [rename, search_eq, search_eq]
      exact Branch.equate_renumbered branches first second
  | disj first second onFirst onSecond =>
      rw [rename, search_disj, search_disj]
      have ofFirst := onFirst (b := b.choose 0) supply (branches.choose 0)
      have ofSecond := onSecond (b := b.choose 1) supply (branches.choose 1)
      exact ofFirst.bind fun found => .merge found ofSecond
  | conj first second onFirst onSecond =>
      rw [rename, search_conj, search_conj]
      refine (onFirst supply branches).bind fun found =>
        found.bindWith second ?_
      intro between member between' betweens
      have advanced := onward_search program first b between member
      exact onSecond (Nat.le_trans (Nat.sub_le_sub_left advanced _) supply)
        betweens
  | fresh name body =>
      rw [rename]
      cases introduced : b.state.fresh? with
      | none =>
          intro calm
          rw [search_fresh_of_none program b name body introduced] at calm
          cases calm
      | some pair =>
          rcases pair with ⟨x, s⟩
          cases introduced' : b'.state.fresh? with
          | none =>
              intro _ calm
              rw [search_fresh_of_none _ b' name _ introduced'] at calm
              cases calm
          | some pair' =>
              rcases pair' with ⟨y, s'⟩
              obtain ⟨rfl, states⟩ :=
                branches.state.fresh? introduced introduced'
              rw [search_fresh program b name body introduced,
                search_fresh _ b' name _ introduced', branches.choices]
              have fewer : Var.capacity - s.counter < left := by
                obtain ⟨advanced, inRange⟩ := counter_of_fresh? introduced
                omega
              have started : (b.withState s).Renumbered ρ (b'.withState s') :=
                ⟨states, branches.choices⟩
              have inside := onFewer _ fewer
                ((body.withVar name x b.choices).build program)
                (b := b.withState s) (Nat.le_refl _) started
              rw [← Closure.build_rename] at inside
              exact .after rfl inside
  | suspend body =>
      rw [rename, search_suspend, search_suspend, branches.choices]
      exact .pure (.delay (.task ⟨rfl, branches⟩))
  | times count =>
      rw [rename, search_times, search_times]
      refine .pure (.ofList ?_)
      rw [List.forall₂_map_left_iff, List.forall₂_map_right_iff,
        List.forall₂_same]
      exact fun index _ => branches.choose index

/-- The searches that run belong together as long as neither is broken off. -/
theorem apply_renumbered (plan : Plan) {b b' : Branch}
    (branches : b.Renumbered ρ b') :
    (plan.apply program b).Renumbered ρ
      ((plan.rename ρ.map).apply (program.rename ρ.map) b') := by
  intro calm calm'
  have same := apply_eq_search_of_calm calm
  have same' := apply_eq_search_of_calm calm'
  rw [same] at calm ⊢
  rw [same'] at calm' ⊢
  exact search_renumbered _ plan (Nat.le_refl _) branches calm calm'

end Plan

theorem Suspension.force_renumbered {program : Program} :
    ∀ suspension suspension' : Suspension Task Plan Branch,
      suspension.Renumbered ρ suspension' →
        (suspension.force program.rules).Renumbered ρ
          (suspension'.force (program.rename ρ.map).rules)
  | .task postponed, _, .task inside => by
      rw [force_task, force_task]
      change ((postponed.body.build program).apply program
        postponed.branch).Renumbered ρ _
      have applied := @Plan.apply_renumbered ρ program
        (postponed.body.build program) _ _ inside.branch
      rw [← Closure.build_rename, ← inside.body] at applied
      exact applied
  | .merge _ source, _, .merge others sources => by
      rw [force_merge, force_merge]
      exact .merge others (force_renumbered source _ sources)
  | .bind source plan, _, .bind sources => by
      rw [force_bind, force_bind]
      refine (force_renumbered source _ sources).bind fun found =>
        found.bindWith plan ?_
      intro b _ b' branches
      exact Plan.apply_renumbered plan branches

namespace Stream.Renumbered

/-- What is seen of the two streams belongs together, and so does what is
reported until then. -/
theorem sight {program : Program} {s s' : Search}
    (streams : s.Renumbered ρ s') {n : Nat}
    (calm : (s.reports program.rules n).any Event.isFatal = false)
    (calm' : (s'.reports (program.rename ρ.map).rules n).any Event.isFatal =
      false) :
    Option.Rel (Sight.Related (Branch.Renumbered ρ)) (s.sight program.rules n)
        (s'.sight (program.rename ρ.map).rules n) ∧
      s'.reports (program.rename ρ.map).rules n =
        (s.reports program.rules n).map (Event.rename ρ.map) := by
  induction n generalizing s s' with
  | zero =>
      cases streams with
      | nil => exact ⟨.none, rfl⟩
      | cons head tail => exact ⟨.some (.yield head), rfl⟩
      | delay inside => exact ⟨.some .tick, rfl⟩
  | succ n earlier =>
      cases streams with
      | nil => exact ⟨.none, rfl⟩
      | cons head tail => exact earlier tail calm calm'
      | @delay suspension suspension' inside =>
          rw [Stream.reports, List.any_append, Bool.or_eq_false_iff]
            at calm calm'
          obtain ⟨forced, reported⟩ :=
            suspension.force_renumbered suspension' inside calm.1 calm'.1
          obtain ⟨seen, reportedLater⟩ := earlier forced calm.2 calm'.2
          refine ⟨seen, ?_⟩
          rw [Stream.reports, Stream.reports, reported, reportedLater,
            List.map_append]

end Stream.Renumbered

/-! ### Collecting from two searches in step -/

namespace Stream.Renumbered

/-- Where neither search is broken off, the same is collected from both, as
seen by someone who cannot tell apart what belongs together. -/
theorem collectFrom {program : Program} {β : Type} {f f' : Branch → β}
    (same : ∀ b b', b.Renumbered ρ b' → f' b' = f b) {s s' : Search}
    (streams : s.Renumbered ρ s') (demand : Demand) {fuel : Nat}
    {progress progress' : Harvest.Progress Event Branch}
    (items : progress'.reversed.map f' = progress.reversed.map f)
    (counts : progress'.count = progress.count)
    (forced : progress'.forced = progress.forced)
    (running : (s.collectFrom program.rules demand fuel
      progress).value.ending ≠ .stopped)
    (running' : (s'.collectFrom (program.rename ρ.map).rules demand fuel
      progress').value.ending ≠ .stopped) :
    (s'.collectFrom (program.rename ρ.map).rules demand fuel
        progress').value.map f' =
      (s.collectFrom program.rules demand fuel progress).value.map f := by
  have closed : ∀ {now now' : Harvest.Progress Event Branch} (ending : Ending),
      now'.reversed.map f' = now.reversed.map f → now'.forced = now.forced →
      (now'.close ending).value.map f' = (now.close ending).value.map f := by
    intro now now' ending collected steps
    simp [Harvest.Progress.close, Harvest.map, collected, steps]
  induction fuel generalizing s s' progress progress' with
  | zero => exact closed .unfinished items forced
  | succ fuel fewer =>
      by_cases met : demand.isMet progress.count = true
      · rw [collectFrom_of_isMet met, collectFrom_of_isMet (counts ▸ met)]
        exact closed .satisfied items forced
      · have met' : ¬ demand.isMet progress'.count = true := counts ▸ met
        cases streams with
        | nil =>
            rw [Stream.collectFrom, Stream.collectFrom, if_neg met, if_neg met']
            exact closed .exhausted items forced
        | cons head tail =>
            rw [collectFrom_cons met] at running ⊢
            rw [collectFrom_cons met'] at running' ⊢
            refine fewer tail ?_ (congrArg (· + 1) counts) forced running
              running'
            exact congrArg₂ List.cons (same _ _ head) items
        | @delay suspension suspension' inside =>
            obtain ⟨calm, goesOn⟩ := collectFrom_delay met running
            obtain ⟨calm', goesOn'⟩ := collectFrom_delay met' running'
            obtain ⟨values, _⟩ :=
              suspension.force_renumbered suspension' inside calm calm'
            rw [goesOn] at running ⊢
            rw [goesOn'] at running' ⊢
            exact fewer values items counts (congrArg (· + 1) forced) running
              running'

end Stream.Renumbered

theorem Goal.applyTo_renumbered {s s' : State} (states : s.Renumbered ρ s')
    (program : Program) (goal : Goal) (scope : Scope) (place : Place) :
    (goal.applyTo program scope place s).Renumbered ρ
      ((goal.rename ρ.map).applyTo (program.rename ρ.map) (scope.rename ρ.map)
        place s') := by
  rw [applyTo, applyTo, build_rename]
  exact Plan.apply_renumbered _ ⟨states, rfl⟩

end Relational
