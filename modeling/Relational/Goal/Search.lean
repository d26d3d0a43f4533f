/-
Module: Relational.Goal.Search
Purpose: The search that a plan describes.
Main exports: Task, Search, Plan.search
-/
import Relational.Branch
import Relational.Goal.Plan
import Relational.Stream.Force
import Relational.Substitution.Unify

namespace Relational

/-!
Applying a plan to a branch gives a stream of branches.  A disjunction merges the streams of its
two sides, and a conjunction applies its second plan to every branch of the first.  What is put off
is either a closure still to be built or a plan still to be applied.

A new variable is the one place where applying a plan does not go on with a part of it.  The body is
built there, and it may introduce variables in its turn.  The counter of a branch never goes back
and every variable advances it, so new variables are nested no deeper than there are variables left.
A bound on this depth makes the search a total function; as the bound that is used is not used up,
`Plan.search` satisfies the equations below, in which it does not appear.
-/

/-- A body that waits to be built and applied, and the branch that it waits for. -/
structure Task where
  body : Closure
  branch : Branch
deriving Repr

/-- A stream of branches. -/
abbrev Search := Stream Task Plan Branch

/-- Applies an equation to a branch. -/
def Branch.equate (left right : Term) (b : Branch) : Traced Event Search :=
  match b.state.substitution.unify left right with
  | .ok substitution => .pure (.singleton (b.withState (b.state.withSubstitution substitution)))
  | .error failure => .after (.failed failure) (.pure .nil)

namespace Plan

/-- Applies a plan to a branch.  `enter` says how the body of a new variable is applied. -/
def searchWith (enter : Closure → Branch → Traced Event Search) :
    Plan → Branch → Traced Event Search
  | .succeed, b => .pure (.singleton b)
  | .fail, _ => .pure .nil
  | .eq left right, b => b.equate left right
  | .disj left right, b =>
    (left.searchWith enter (b.choose 0)).bind fun found =>
      (right.searchWith enter (b.choose 1)).map found.merge
  | .conj first second, b =>
    (first.searchWith enter b).bind fun found => found.bindWith (second.searchWith enter) second
  | .fresh name body, b =>
    match b.state.fresh? with
    | some (x, s) =>
      .after (.introduced x) (enter (body.withVar name x b.choices) (b.withState s))
    | none => .after .outOfVariables (.pure .nil)
  | .suspend body, b => .pure (.delay (.task ⟨body.onBranch b.choices, b⟩))
  | .times count, b => .pure (.ofList ((List.range count).map b.choose))

/-- Applies a plan to a branch, with new variables nested at most `depth` deep. -/
def searchWithin (program : Program) : Nat → Plan → Branch → Traced Event Search
  | 0 => searchWith fun _ _ => .pure .nil
  | depth + 1 => searchWith fun body b => (body.build program).searchWithin program depth b

/-- The search that a plan describes from a branch. -/
def search (program : Program) (plan : Plan) (b : Branch) : Traced Event Search :=
  plan.searchWithin program (Var.capacity - b.state.counter) b

/-! ### The depth of new variables -/

/-- An application brings forward no branch that has fewer variables behind it. -/
def Onward (apply : Branch → Traced Event Search) : Prop :=
  ∀ b, ∀ b' ∈ (apply b).value.mature, b.state.counter ≤ b'.state.counter

theorem onward_equate (left right : Term) : Onward (Branch.equate left right) := by
  intro b b' member
  rw [Branch.equate] at member
  split at member
  · simp only [Traced.value_pure, Stream.mature_singleton, List.mem_singleton] at member
    simp [member, State.withSubstitution]
  · simp at member

theorem counter_of_fresh? {s s' : State} {x : Var} (introduced : s.fresh? = some (x, s')) :
    s'.counter = s.counter + 1 ∧ s'.counter ≤ Var.capacity := by
  obtain ⟨sameId, rfl⟩ := State.fresh?_eq_some_iff.1 introduced
  have := x.inRange
  exact ⟨rfl, by simp only; omega⟩

theorem onward_searchWith {enter : Closure → Branch → Traced Event Search}
    (entering : ∀ body, Onward (enter body)) (plan : Plan) : Onward (plan.searchWith enter) := by
  induction plan with
  | succeed => simp [Onward, searchWith]
  | fail => simp [Onward, searchWith]
  | eq left right => exact onward_equate left right
  | disj left right onLeft onRight =>
      intro b b' member
      rcases Stream.mem_mature_of_merge member with member | member
      · exact onLeft (b.choose 0) b' member
      · exact onRight (b.choose 1) b' member
  | conj first second onFirst onSecond =>
      intro b b' member
      obtain ⟨between, found, member⟩ := Stream.exists_mem_mature_of_bindWith member
      exact Nat.le_trans (onFirst b between found) (onSecond between b' member)
  | fresh name body =>
      intro b b' member
      rw [searchWith] at member
      split at member
      · rename_i x s introduced
        have later := entering _ _ b' member
        have advanced := (counter_of_fresh? introduced).1
        simp only [Branch.state_withState] at later
        omega
      · simp at member
  | suspend body => simp [Onward, searchWith]
  | times count =>
      intro b b' member
      simp only [searchWith, Traced.value_pure, Stream.mature_ofList, List.mem_map] at member
      obtain ⟨index, _, rfl⟩ := member
      simp

/-- An application enters bodies only on branches with more variables behind them. -/
theorem searchWith_congr {enter enter' : Closure → Branch → Traced Event Search}
    (entering : ∀ body, Onward (enter body)) (plan : Plan) (b : Branch)
    (same : ∀ body b', b.state.counter < b'.state.counter → b'.state.counter ≤ Var.capacity →
      enter body b' = enter' body b') :
    plan.searchWith enter b = plan.searchWith enter' b := by
  induction plan generalizing b with
  | disj left right onLeft onRight =>
      rw [searchWith, searchWith, onLeft (b.choose 0) same, onRight (b.choose 1) same]
  | conj first second onFirst onSecond =>
      rw [searchWith, searchWith, ← onFirst b same, Traced.bind, Traced.bind,
        Stream.bindWith_congr fun between found => onSecond between fun body b' later =>
          same body b'
            (Nat.lt_of_le_of_lt (onward_searchWith entering first b between found) later)]
  | fresh name body =>
      rw [searchWith, searchWith]
      split
      · rename_i x s introduced
        obtain ⟨advanced, inRange⟩ := counter_of_fresh? introduced
        rw [same _ _ (by simp [advanced]) inRange]
      · rfl
  | _ => rfl

theorem onward_searchWithin (program : Program) (depth : Nat) (plan : Plan) :
    Onward (plan.searchWithin program depth) := by
  induction depth generalizing plan with
  | zero => exact onward_searchWith (by simp [Onward]) plan
  | succ depth shallower => exact onward_searchWith (fun body => shallower _) plan

/-- Depths that cover the variables left to a branch give the same search. -/
theorem searchWithin_congr (program : Program) {depth depth' : Nat} (plan : Plan) (b : Branch)
    (enough : Var.capacity ≤ depth + b.state.counter)
    (enough' : Var.capacity ≤ depth' + b.state.counter) :
    plan.searchWithin program depth b = plan.searchWithin program depth' b := by
  induction depth generalizing depth' plan b with
  | zero =>
      cases depth' <;>
        exact searchWith_congr (by simp [Onward]) plan b fun _ _ _ _ => by omega
  | succ depth shallower =>
      have entering (body : Closure) := onward_searchWithin program depth (body.build program)
      cases depth' with
      | zero => exact searchWith_congr entering plan b fun _ _ _ _ => by omega
      | succ depth' =>
          exact searchWith_congr entering plan b fun body b' later _ =>
            shallower _ b' (by omega) (by omega)

/-- The search of a plan enters the body of a new variable with the search of its plan. -/
theorem search_eq_searchWith (program : Program) (plan : Plan) (b : Branch) :
    plan.search program b =
      plan.searchWith (fun body => (body.build program).search program) b := by
  rw [search]
  cases left : Var.capacity - b.state.counter with
  | zero => exact searchWith_congr (by simp [Onward]) plan b fun _ _ _ _ => by omega
  | succ depth =>
      have entering (body : Closure) := onward_searchWithin program depth (body.build program)
      exact searchWith_congr entering plan b fun body b' later _ =>
        searchWithin_congr program _ b' (by omega) (by omega)

/-! ### One equation for every kind of plan -/

variable (program : Program) (b : Branch)

theorem search_succeed : Plan.succeed.search program b = .pure (.singleton b) :=
  search_eq_searchWith ..

theorem search_fail : Plan.fail.search program b = .pure .nil :=
  search_eq_searchWith ..

theorem search_eq (left right : Term) :
    (Plan.eq left right).search program b = b.equate left right :=
  search_eq_searchWith ..

theorem search_disj (left right : Plan) :
    (Plan.disj left right).search program b =
      (left.search program (b.choose 0)).bind fun found =>
        (right.search program (b.choose 1)).map found.merge := by
  simp only [search_eq_searchWith program _ (b.choose _)]
  exact search_eq_searchWith ..

theorem search_conj (first second : Plan) :
    (Plan.conj first second).search program b =
      (first.search program b).bind fun found =>
        found.bindWith (second.search program) second := by
  have onSecond := funext (search_eq_searchWith program second)
  rw [search_eq_searchWith program first b, onSecond]
  exact search_eq_searchWith ..

theorem search_fresh {x : Var} {s : State} (name : String) (body : Closure)
    (introduced : b.state.fresh? = some (x, s)) :
    (Plan.fresh name body).search program b =
      .after (.introduced x)
        (((body.withVar name x b.choices).build program).search program (b.withState s)) := by
  rw [search_eq_searchWith, searchWith, introduced]

theorem search_fresh_of_none (name : String) (body : Closure) (used : b.state.fresh? = none) :
    (Plan.fresh name body).search program b = .after .outOfVariables (.pure .nil) := by
  rw [search_eq_searchWith, searchWith, used]

theorem search_suspend (body : Closure) :
    (Plan.suspend body).search program b =
      .pure (.delay (.task ⟨body.onBranch b.choices, b⟩)) :=
  search_eq_searchWith ..

theorem search_times (count : Nat) :
    (Plan.times count).search program b = .pure (.ofList ((List.range count).map b.choose)) :=
  search_eq_searchWith ..

end Plan

end Relational
