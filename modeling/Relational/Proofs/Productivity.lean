/-
Module: Relational.Proofs.Productivity
Purpose: If every cycle of calls passes through a suspension, all that is done
  between two suspensions comes to an end, however long the search goes on.
Main exports: Goal.calls, Program.Guarded, Program.reach, Program.rank,
  Goal.BuildsWithin, Plan.AppliesWithin, Suspension.ForcesWithin,
  Goal.guarded_productive
-/
import Mathlib.Computability.Primrec.List
import Relational.Proofs.Enumeration
import Relational.Proofs.Halting
import Relational.Proofs.Termination

namespace Relational

/-!
Building a goal puts bodies in the place of calls, and applying its plan enters
the bodies of new variables, which call again.  A search may go on for ever, but
no step of it may.  This holds if calls that follow each other without a
suspension in between never come back to a relation.  Then they can be ranked:
each call leads to a relation of lower rank, and there are no more ranks than
relations.

Building and applying are computed under bounds, on the calls that are nested
and on the variables that are left.  Here they are described without these
bounds, by rules that say what they return and how deep they are nested in doing
so.  The depth that suffices depends on the goal and the program only, and
neither on the state nor on how many variables there are.
-/

/-! ### Guarded programs -/

namespace Goal

/-- The relations that a goal calls in front of its suspensions. -/
def calls : Goal → List String
  | .disj left right => left.calls ++ right.calls
  | .conj first second => first.calls ++ second.calls
  | .fresh _ body => body.calls
  | .call name _ => [name]
  | _ => []

/-- How deep the parts of a goal are nested.  A call is nested around the body
of its relation. -/
def height : Goal → Nat
  | .disj left right => max left.height right.height + 1
  | .conj first second => max first.height second.height + 1
  | .fresh _ body => body.height + 1
  | .suspend body => body.height + 1
  | .call _ _ => 1
  | _ => 0

end Goal

namespace Program

/-- One relation calls the other in front of its suspensions. -/
def Calls (program : Program) (caller callee : String) : Prop :=
  ∃ relation, program.find? caller = some relation ∧
    callee ∈ relation.body.calls

/-- Every cycle of calls passes through a suspension. -/
def Guarded (program : Program) : Prop :=
  ∀ name, ¬ Relation.TransGen program.Calls name name

/-- The height of the highest body.  The endless goals are resumed as goals of
height one. -/
def height (program : Program) : Nat :=
  program.foldr (fun entry highest => max entry.2.body.height highest) 1

/-- How deep a search that begins with the goal is nested between two
suspensions. -/
def reach (program : Program) (goal : Goal) : Nat :=
  max goal.height program.height + program.length * program.height

theorem mem_of_find? {program : Program} {name : String} {relation : Relation}
    (found : program.find? name = some relation) :
    (name, relation) ∈ program := by
  obtain ⟨before, after, rfl, _⟩ := List.lookup_eq_some_iff.1 found
  simp

theorem height_body_le {program : Program} {name : String}
    {relation : Relation} (found : program.find? name = some relation) :
    relation.body.height ≤ program.height := by
  have member := mem_of_find? found
  clear found
  induction program with
  | nil => cases member
  | cons entry program onProgram =>
      rcases List.mem_cons.1 member with rfl | later
      · exact Nat.le_max_left ..
      · exact Nat.le_trans (onProgram later) (Nat.le_max_right ..)

theorem one_le_height (program : Program) : 1 ≤ program.height := by
  induction program with
  | nil => exact Nat.le_refl 1
  | cons entry program onProgram =>
      exact Nat.le_trans onProgram (Nat.le_max_right ..)

/-- A program is guarded if its relations have numbers that become smaller with
every call in front of a suspension. -/
theorem guarded_of_numbers {program : Program} (number : String → Nat)
    (falls : ∀ entry ∈ program, ∀ callee ∈ entry.2.body.calls,
      number callee < number entry.1) : program.Guarded := by
  have step : ∀ {caller callee}, program.Calls caller callee →
      number callee < number caller := by
    rintro caller callee ⟨relation, found, called⟩
    exact falls _ (mem_of_find? found) callee called
  intro name cycle
  have smaller : ∀ {other}, Relation.TransGen program.Calls name other →
      number other < number name := by
    intro other path
    induction path with
    | single called => exact step called
    | tail _ called before => exact Nat.lt_trans (step called) before
  exact Nat.lt_irrefl _ (smaller cycle)

open Classical in
/-- The number of relations that calls lead to from a relation, in front of all
suspensions. -/
noncomputable def rank (program : Program) (name : String) : Nat :=
  ((program.map Prod.fst).toFinset.filter
    (Relation.TransGen program.Calls name)).card

variable {program : Program}

theorem mem_names {name : String} {relation : Relation}
    (found : program.find? name = some relation) :
    name ∈ (program.map Prod.fst).toFinset :=
  List.mem_toFinset.2 (List.mem_map_of_mem (mem_of_find? found))

theorem Guarded.rank_lt_of_calls (guarded : program.Guarded)
    {caller callee : String} {relation : Relation}
    (called : program.Calls caller callee)
    (found : program.find? callee = some relation) :
    program.rank callee < program.rank caller := by
  classical
  refine Finset.card_lt_card ⟨?_, ?_⟩
  · intro name member
    rw [Finset.mem_filter] at member ⊢
    exact ⟨member.1, .head called member.2⟩
  · intro contrary
    have member := contrary (Finset.mem_filter.2
      ⟨mem_names found, .single called⟩)
    exact guarded callee (Finset.mem_filter.1 member).2

theorem Guarded.rank_lt_length (guarded : program.Guarded) {name : String}
    {relation : Relation} (found : program.find? name = some relation) :
    program.rank name < program.length := by
  classical
  calc program.rank name
      < (program.map Prod.fst).toFinset.card := by
        refine Finset.card_lt_card ⟨Finset.filter_subset .., ?_⟩
        intro contrary
        exact guarded name
          (Finset.mem_filter.1 (contrary (mem_names found))).2
    _ ≤ (program.map Prod.fst).length := List.toFinset_card_le _
    _ = program.length := List.length_map _

end Program

/-! ### What building and applying return

The rules follow what is written down in a goal or a plan, and nothing in them
counts calls or variables.  A finite derivation is a computation that comes to
its end; its depth is how far computations are nested in each other. -/

/-- Building the goal returns the plan. -/
inductive Goal.BuildsWithin (program : Program) :
    Nat → Goal → Scope → Place → Plan → Prop where
  | succeed {depth : Nat} {scope : Scope} {place : Place} :
      BuildsWithin program depth .succeed scope place .succeed
  | fail {depth : Nat} {scope : Scope} {place : Place} :
      BuildsWithin program depth .fail scope place .fail
  | never {depth : Nat} {scope : Scope} {place : Place} :
      BuildsWithin program depth .never scope place
        (.suspend ⟨.never, [], place⟩)
  | always {depth : Nat} {scope : Scope} {place : Place} :
      BuildsWithin program depth .always scope place
        (.suspend ⟨.disj .succeed .always, [], place⟩)
  | eq {depth : Nat} {scope : Scope} {place : Place} {left right : Expr} :
      BuildsWithin program depth (.eq left right) scope place
        (.eq (left.build scope (.part 0 place))
          (right.build scope (.part 1 place)))
  | disj {depth : Nat} {scope : Scope} {place : Place} {left right : Goal}
      {plan plan' : Plan}
      (onLeft : BuildsWithin program depth left scope (.part 0 place) plan)
      (onRight : BuildsWithin program depth right scope (.part 1 place) plan') :
      BuildsWithin program (depth + 1) (.disj left right) scope place
        (.disj plan plan')
  | conj {depth : Nat} {scope : Scope} {place : Place} {first second : Goal}
      {plan plan' : Plan}
      (onFirst : BuildsWithin program depth first scope (.part 0 place) plan)
      (onSecond : BuildsWithin program depth second scope (.part 1 place)
        plan') :
      BuildsWithin program (depth + 1) (.conj first second) scope place
        (.conj plan plan')
  | fresh {depth : Nat} {scope : Scope} {place : Place} {name : String}
      {body : Goal} :
      BuildsWithin program depth (.fresh name body) scope place
        (.fresh name ⟨body, scope, place⟩)
  | suspend {depth : Nat} {scope : Scope} {place : Place} {body : Goal} :
      BuildsWithin program depth (.suspend body) scope place
        (.suspend ⟨body, scope, place⟩)
  | call {depth : Nat} {scope : Scope} {place : Place} {name : String}
      {arguments : List Expr} {relation : Relation} {plan : Plan}
      (found : program.find? name = some relation)
      (onBody : BuildsWithin program depth relation.body
        (relation.scope (buildArguments scope (.part 0 place) arguments))
        (.part 1 place) plan) :
      BuildsWithin program (depth + 1) (.call name arguments) scope place plan
  | unknown {depth : Nat} {scope : Scope} {place : Place} {name : String}
      {arguments : List Expr} (missing : program.find? name = none) :
      BuildsWithin program depth (.call name arguments) scope place .fail
  | times {depth : Nat} {scope : Scope} {place : Place} {count : Nat} :
      BuildsWithin program depth (.times count) scope place (.times count)

/-- What an equation comes to on a branch once its terms have been unified. -/
def Branch.settle (b : Branch) :
    Except Failure Substitution → Traced Event Search
  | .ok substitution =>
    .pure (.singleton (b.withState (b.state.withSubstitution substitution)))
  | .error failure => .after (.failed failure) (.pure .nil)

theorem Branch.equate_eq_settle (b : Branch) (left right : Term) :
    b.equate left right = b.settle (b.state.substitution.unify left right) := by
  rw [equate]
  split
  · rename_i unified
    rw [unified, settle]
  · rename_i unified
    rw [unified, settle]

/-- Applying the plan to the branch returns the search.  The terms of an
equation are unified by a loop, and the second plan of a conjunction is applied
to every branch that the first one brings forward. -/
inductive Plan.AppliesWithin (program : Program) :
    Nat → Plan → Branch → Traced Event Search → Prop where
  | succeed {depth : Nat} {b : Branch} :
      AppliesWithin program depth .succeed b (.pure (.singleton b))
  | fail {depth : Nat} {b : Branch} :
      AppliesWithin program depth .fail b (.pure .nil)
  | eq {depth : Nat} {b : Branch} {left right : Term}
      {result : Except Failure Substitution}
      (ends : Ends Substitution.unifyRound
        (.solve b.state.substitution [(left, right)]) result) :
      AppliesWithin program depth (.eq left right) b (b.settle result)
  | disj {depth : Nat} {b : Branch} {left right : Plan}
      {found found' : Traced Event Search}
      (onLeft : AppliesWithin program depth left (b.choose 0) found)
      (onRight : AppliesWithin program depth right (b.choose 1) found') :
      AppliesWithin program (depth + 1) (.disj left right) b
        (found.bind fun search => found'.map search.merge)
  | conj {depth : Nat} {b : Branch} {first second : Plan}
      {found : Traced Event Search} {onward : Branch → Traced Event Search}
      (onFirst : AppliesWithin program depth first b found)
      (onSecond : ∀ between ∈ found.value.mature,
        AppliesWithin program depth second between (onward between)) :
      AppliesWithin program (depth + 1) (.conj first second) b
        (found.bind fun search => search.bindWith onward second)
  | fresh {depth : Nat} {b : Branch} {name : String} {body : Closure} {x : Var}
      {s : State} {plan : Plan} {found : Traced Event Search}
      (introduced : b.state.fresh? = some (x, s))
      (builds : body.goal.BuildsWithin program depth
        ((name, .var x) :: body.scope) (.visit body.place b.choices) plan)
      (onBody : AppliesWithin program depth plan (b.withState s) found) :
      AppliesWithin program (depth + 1) (.fresh name body) b
        (.after (.introduced x) found)
  | outOfVariables {depth : Nat} {b : Branch} {name : String} {body : Closure}
      (used : b.state.fresh? = none) :
      AppliesWithin program depth (.fresh name body) b
        (.after .outOfVariables (.pure .nil))
  | suspend {depth : Nat} {b : Branch} {body : Closure} :
      AppliesWithin program depth (.suspend body) b
        (.pure (.delay (.task ⟨body.onBranch b.choices, b⟩)))
  | times {depth : Nat} {b : Branch} {count : Nat} :
      AppliesWithin program depth (.times count) b
        (.pure (.ofList ((List.range count).map b.choose)))

/-- Applying the plan to the branch returns, and is broken off where the
variables run out. -/
def Plan.StartsWithin (program : Program) (depth : Nat) (plan : Plan)
    (b : Branch) (traced : Traced Event Search) : Prop :=
  ∃ found, plan.AppliesWithin program depth b found ∧
    traced = found.stopAt Event.isFatal .nil

/-- Forcing the suspension returns the search.  A postponed body is built and
applied; whatever waits for a suspension is done once that one has been
forced. -/
inductive Suspension.ForcesWithin (program : Program) (depth : Nat) :
    Suspension Task Plan Branch → Traced Event Search → Prop where
  | task {body : Closure} {b : Branch} {plan : Plan}
      {found : Traced Event Search}
      (builds : body.goal.BuildsWithin program depth body.scope body.place plan)
      (starts : plan.StartsWithin program depth b found) :
      ForcesWithin program depth (.task ⟨body, b⟩) found
  | merge {other : Search} {source : Suspension Task Plan Branch}
      {found : Traced Event Search}
      (onSource : ForcesWithin program depth source found) :
      ForcesWithin program depth (.merge other source) (found.map other.merge)
  | bind {source : Suspension Task Plan Branch} {plan : Plan}
      {found : Traced Event Search} {onward : Branch → Traced Event Search}
      (onSource : ForcesWithin program depth source found)
      (starts : ∀ b ∈ found.value.mature,
        plan.StartsWithin program depth b (onward b)) :
      ForcesWithin program depth (.bind source plan)
        (found.bind fun search => search.bindWith onward plan)
  | map {f : Branch → Branch} {source : Suspension Task Plan Branch}
      {found : Traced Event Search}
      (onSource : ForcesWithin program depth source found) :
      ForcesWithin program depth (.map f source) (found.map (Stream.map f))

/-! ### Building returns -/

/-- The goal calls relations below a rank only. -/
def Goal.CallsBelow (program : Program) (level : Nat) (goal : Goal) : Prop :=
  ∀ name ∈ goal.calls, ∀ relation, program.find? name = some relation →
    program.rank name < level

theorem Goal.CallsBelow.of_subset {program : Program} {level : Nat}
    {goal part : Goal} (below : goal.CallsBelow program level)
    (fewer : part.calls ⊆ goal.calls) : part.CallsBelow program level :=
  fun name member => below name (fewer member)

namespace Program

variable {program : Program}

/-- No relation has a higher rank than there are relations. -/
theorem Guarded.callsBelow_length (guarded : program.Guarded) (goal : Goal) :
    goal.CallsBelow program program.length :=
  fun _ _ _ found => guarded.rank_lt_length found

theorem Guarded.callsBelow_rank (guarded : program.Guarded) {name : String}
    {relation : Relation} (found : program.find? name = some relation) :
    relation.body.CallsBelow program (program.rank name) :=
  fun _ called _ found' =>
    guarded.rank_lt_of_calls ⟨relation, found, called⟩ found'

/-- A call leads to a body for which the depth allowed at the call is enough. -/
theorem depth_body_le {name : String} {relation : Relation} {level : Nat}
    (found : program.find? name = some relation)
    (lower : program.rank name < level) :
    relation.body.height + program.rank name * program.height ≤
      level * program.height :=
  calc relation.body.height + program.rank name * program.height
      ≤ program.height + program.rank name * program.height :=
        Nat.add_le_add_right (height_body_le found) _
    _ = (program.rank name + 1) * program.height := by
        rw [Nat.succ_mul, Nat.add_comm]
    _ ≤ level * program.height := Nat.mul_le_mul_right _ lower

/-- Building returns the plan that is built under an allowance, so the allowance
is not used up. -/
theorem Guarded.builds (guarded : program.Guarded) {level : Nat} {goal : Goal}
    (below : goal.CallsBelow program level) {allowance : Nat}
    (allowed : level ≤ allowance) (depth : Nat)
    (deep : goal.height + level * program.height ≤ depth) (scope : Scope)
    (place : Place) :
    goal.BuildsWithin program depth scope place
      (goal.buildWithin program allowance scope place) := by
  induction level using Nat.strongRecOn
    generalizing goal allowance depth scope place with
  | ind level onLower =>
  induction goal generalizing depth scope place with
  | succeed =>
      rw [Goal.buildWithin_succeed]
      exact .succeed
  | fail =>
      rw [Goal.buildWithin_fail]
      exact .fail
  | never =>
      rw [Goal.buildWithin_never]
      exact .never
  | always =>
      rw [Goal.buildWithin_always]
      exact .always
  | eq left right =>
      rw [Goal.buildWithin_eq]
      exact .eq
  | disj left right onLeft onRight =>
      rw [Goal.height] at deep
      obtain ⟨depth, rfl⟩ : ∃ less, depth = less + 1 := ⟨depth - 1, by omega⟩
      rw [Goal.buildWithin_disj]
      exact .disj
        (onLeft (below.of_subset (List.subset_append_left ..)) depth
          (by omega) ..)
        (onRight (below.of_subset (List.subset_append_right ..)) depth
          (by omega) ..)
  | conj first second onFirst onSecond =>
      rw [Goal.height] at deep
      obtain ⟨depth, rfl⟩ : ∃ less, depth = less + 1 := ⟨depth - 1, by omega⟩
      rw [Goal.buildWithin_conj]
      exact .conj
        (onFirst (below.of_subset (List.subset_append_left ..)) depth
          (by omega) ..)
        (onSecond (below.of_subset (List.subset_append_right ..)) depth
          (by omega) ..)
  | fresh name body _ =>
      rw [Goal.buildWithin_fresh]
      exact .fresh
  | suspend body _ =>
      rw [Goal.buildWithin_suspend]
      exact .suspend
  | call name arguments =>
      cases found : program.find? name with
      | none =>
          rw [Goal.buildWithin_call_of_none program allowance scope place _
            found]
          exact .unknown found
      | some relation =>
          have lower := below name (List.mem_singleton_self name) relation found
          have enough := depth_body_le found lower
          rw [Goal.height] at deep
          obtain ⟨depth, rfl⟩ : ∃ less, depth = less + 1 :=
            ⟨depth - 1, by omega⟩
          obtain ⟨allowance, rfl⟩ : ∃ less, allowance = less + 1 :=
            ⟨allowance - 1, by omega⟩
          rw [Goal.buildWithin_call program allowance scope place _ found]
          exact .call found (onLower _ lower (guarded.callsBelow_rank found)
            (by omega) depth (by omega) _ _)
  | times count =>
      rw [Goal.buildWithin_times]
      exact .times

end Program

/-! ### Applying returns -/

/-- The plan was built from a goal that is no higher than a bound, with an
allowance that is not used up. -/
inductive Plan.Stems (program : Program) (highest : Nat) : Plan → Prop where
  | built {goal : Goal} {level allowance : Nat}
      (low : goal.height ≤ highest) (below : goal.CallsBelow program level)
      (allowed : level ≤ allowance) (within : allowance ≤ program.length)
      (scope : Scope) (place : Place) :
      Stems program highest (goal.buildWithin program allowance scope place)

mutual

/-- All that the stream holds is in acyclic states, and what is still to be done
was built or will be built from goals that are no higher than a bound. -/
def Stream.Sound (program : Program) (highest : Nat) : Search → Prop
  | .nil => True
  | .cons b rest => b.state.substitution.Acyclic ∧ rest.Sound program highest
  | .delay suspension => suspension.Sound program highest

/-- The same of a suspension.  No search applies a function to its branches. -/
def Suspension.Sound (program : Program) (highest : Nat) :
    Suspension Task Plan Branch → Prop
  | .task postponed => postponed.branch.state.substitution.Acyclic ∧
    postponed.body.goal.height ≤ highest
  | .merge other source =>
    other.Sound program highest ∧ source.Sound program highest
  | .bind source plan =>
    source.Sound program highest ∧ plan.Stems program highest
  | .map _ _ => False

end

namespace Stream.Sound

variable {program : Program} {highest : Nat}

theorem mature {s : Search} (sound : s.Sound program highest) :
    ∀ b ∈ s.mature, b.state.substitution.Acyclic := by
  induction s using matureInduction with
  | onNil => simp
  | onDelay suspension => simp
  | onCons a rest onRest =>
      rw [Stream.Sound] at sound
      intro b member
      rw [mature_cons] at member
      rcases List.mem_cons.1 member with rfl | later
      · exact sound.1
      · exact onRest sound.2 b later

theorem ofList {items : List Branch}
    (each : ∀ b ∈ items, b.state.substitution.Acyclic) :
    (Stream.ofList items : Search).Sound program highest := by
  induction items with
  | nil => exact trivial
  | cons b items onItems =>
      exact ⟨each b (List.mem_cons_self ..),
        onItems fun c member => each c (List.mem_cons_of_mem b member)⟩

theorem merge {left right : Search} (onLeft : left.Sound program highest)
    (onRight : right.Sound program highest) :
    (left.merge right).Sound program highest := by
  match left with
  | .nil => exact onRight
  | .delay suspension => exact ⟨onRight, onLeft⟩
  | .cons b left =>
      rw [merge_cons]
      exact ⟨onLeft.1, merge onRight onLeft.2⟩
termination_by left.mature.length + right.mature.length

theorem bindWith {s : Search} (sound : s.Sound program highest) {plan : Plan}
    (stems : plan.Stems program highest) {f : Branch → Traced Event Search}
    (each : ∀ b ∈ s.mature, (f b).value.Sound program highest) :
    (s.bindWith f plan).value.Sound program highest := by
  induction s using matureInduction with
  | onNil => exact trivial
  | onDelay suspension => exact ⟨sound, stems⟩
  | onCons b rest onRest =>
      rw [value_bindWith_cons]
      refine (each b (by simp)).merge (onRest sound.2 ?_)
      intro c member
      exact each c (by simp [member])

theorem stopAt {traced : Traced Event Search}
    (sound : traced.value.Sound program highest) (test : Event → Bool) :
    (traced.stopAt test .nil).value.Sound program highest := by
  rw [Traced.stopAt]
  split
  · exact trivial
  · exact sound

end Stream.Sound

/-- Applying the plan to the branch returns the search that it describes, and
the search is sound. -/
structure Plan.Returns (program : Program) (highest depth : Nat) (plan : Plan)
    (b : Branch) : Prop where
  applies : plan.AppliesWithin program depth b (plan.search program b)
  sound : (plan.search program b).value.Sound program highest

namespace Plan

variable {program : Program} {highest depth : Nat} {b : Branch}

theorem returns_succeed (acyclic : b.state.substitution.Acyclic) :
    Returns program highest depth .succeed b := by
  constructor
  · rw [search_succeed]
    exact .succeed
  · rw [search_succeed]
    exact ⟨acyclic, trivial⟩

theorem returns_fail : Returns program highest depth .fail b := by
  constructor
  · rw [search_fail]
    exact .fail
  · rw [search_fail]
    exact trivial

/-- Unification ends in an acyclic state and leads to an acyclic one. -/
theorem returns_eq (left right : Term)
    (acyclic : b.state.substitution.Acyclic) :
    Returns program highest depth (.eq left right) b := by
  constructor
  · rw [search_eq, Branch.equate_eq_settle]
    exact .eq (Substitution.unify_ends acyclic left right)
  · rw [search_eq, Branch.equate_eq_settle]
    cases unified : b.state.substitution.unify left right with
    | ok substitution =>
        have grows := Substitution.grows_of_solve acyclic unified
        exact ⟨acyclic.of_grows grows, trivial⟩
    | error failure => exact trivial

theorem returns_disj {left right : Plan}
    (onLeft : left.Returns program highest depth (b.choose 0))
    (onRight : right.Returns program highest depth (b.choose 1)) :
    Returns program highest (depth + 1) (.disj left right) b := by
  constructor
  · rw [search_disj]
    exact .disj onLeft.applies onRight.applies
  · rw [search_disj]
    exact onLeft.sound.merge onRight.sound

theorem returns_conj {first second : Plan}
    (onFirst : first.Returns program highest depth b)
    (stems : second.Stems program highest)
    (onSecond : ∀ between : Branch, between.state.substitution.Acyclic →
      second.Returns program highest depth between) :
    Returns program highest (depth + 1) (.conj first second) b := by
  have later := fun between member =>
    onSecond between (onFirst.sound.mature between member)
  constructor
  · rw [search_conj]
    exact .conj onFirst.applies
      fun between member => (later between member).applies
  · rw [search_conj]
    exact onFirst.sound.bindWith stems
      fun between member => (later between member).sound

/-- Whether a variable is handed out or none is left, the body of a new variable
does what it does once its plan is built. -/
theorem returns_fresh (name : String) {body : Closure}
    (onBody : ∀ (x : Var) (s : State), s.substitution = b.state.substitution →
      body.goal.BuildsWithin program depth ((name, .var x) :: body.scope)
          (.visit body.place b.choices)
          ((body.withVar name x b.choices).build program) ∧
        Returns program highest depth
          ((body.withVar name x b.choices).build program) (b.withState s)) :
    Returns program highest (depth + 1) (.fresh name body) b := by
  cases introduced : b.state.fresh? with
  | none =>
      constructor
      · rw [search_fresh_of_none program b name body introduced]
        exact .outOfVariables introduced
      · rw [search_fresh_of_none program b name body introduced]
        exact trivial
  | some pair =>
      rcases pair with ⟨x, s⟩
      obtain ⟨_, rfl⟩ := State.fresh?_eq_some_iff.1 introduced
      obtain ⟨builds, returns⟩ :=
        onBody x ⟨b.state.substitution, b.state.counter + 1⟩ rfl
      constructor
      · rw [search_fresh program b name body introduced]
        exact .fresh introduced builds returns.applies
      · rw [search_fresh program b name body introduced]
        exact returns.sound

theorem returns_suspend {body : Closure} (low : body.goal.height ≤ highest)
    (acyclic : b.state.substitution.Acyclic) :
    Returns program highest depth (.suspend body) b := by
  constructor
  · rw [search_suspend]
    exact .suspend
  · rw [search_suspend]
    exact ⟨acyclic, low⟩

theorem returns_times (count : Nat) (acyclic : b.state.substitution.Acyclic) :
    Returns program highest depth (.times count) b := by
  constructor
  · rw [search_times]
    exact .times
  · rw [search_times]
    refine .ofList fun c member => ?_
    obtain ⟨index, _, rfl⟩ := List.mem_map.1 member
    exact acyclic

end Plan

namespace Program

variable {program : Program} {highest : Nat}

/-- Applying the plan of a goal returns, from every branch in an acyclic
state. -/
theorem Guarded.returns (guarded : program.Guarded)
    (above : program.height ≤ highest) {level : Nat} {goal : Goal}
    (low : goal.height ≤ highest) (below : goal.CallsBelow program level)
    {allowance : Nat} (allowed : level ≤ allowance)
    (within : allowance ≤ program.length) (depth : Nat)
    (deep : goal.height + level * program.height ≤ depth) (scope : Scope)
    (place : Place) (b : Branch) (acyclic : b.state.substitution.Acyclic) :
    (goal.buildWithin program allowance scope place).Returns program highest
      depth b := by
  -- Calls lower the rank, and everything else leads to a part of the goal.
  induction level using Nat.strongRecOn
    generalizing goal allowance depth scope place b with
  | ind level onLower =>
  induction goal generalizing allowance depth scope place b with
  | succeed =>
      rw [Goal.buildWithin_succeed]
      exact Plan.returns_succeed acyclic
  | fail =>
      rw [Goal.buildWithin_fail]
      exact Plan.returns_fail
  | never =>
      rw [Goal.buildWithin_never]
      exact Plan.returns_suspend low acyclic
  | always =>
      rw [Goal.buildWithin_always]
      exact Plan.returns_suspend (Nat.le_trans program.one_le_height above)
        acyclic
  | eq left right =>
      rw [Goal.buildWithin_eq]
      exact Plan.returns_eq _ _ acyclic
  | disj left right onLeft onRight =>
      rw [Goal.height] at low deep
      obtain ⟨depth, rfl⟩ : ∃ less, depth = less + 1 := ⟨depth - 1, by omega⟩
      rw [Goal.buildWithin_disj]
      exact Plan.returns_disj
        (onLeft (by omega) (below.of_subset (List.subset_append_left ..))
          allowed within depth (by omega) _ _ _ acyclic)
        (onRight (by omega) (below.of_subset (List.subset_append_right ..))
          allowed within depth (by omega) _ _ _ acyclic)
  | conj first second onFirst onSecond =>
      rw [Goal.height] at low deep
      obtain ⟨depth, rfl⟩ : ∃ less, depth = less + 1 := ⟨depth - 1, by omega⟩
      have belowSecond : second.CallsBelow program level :=
        below.of_subset (List.subset_append_right ..)
      rw [Goal.buildWithin_conj]
      exact Plan.returns_conj
        (onFirst (by omega) (below.of_subset (List.subset_append_left ..))
          allowed within depth (by omega) _ _ _ acyclic)
        (.built (by omega) belowSecond allowed within ..)
        (onSecond (by omega) belowSecond allowed within depth (by omega) _ _)
  | fresh name body onBody =>
      rw [Goal.height] at low deep
      obtain ⟨depth, rfl⟩ : ∃ less, depth = less + 1 := ⟨depth - 1, by omega⟩
      have belowBody : body.CallsBelow program level := below
      have allowed' := Nat.le_trans allowed within
      rw [Goal.buildWithin_fresh]
      refine Plan.returns_fresh name fun x s same => ?_
      exact ⟨guarded.builds belowBody allowed' depth (by omega) _ _,
        onBody (by omega) belowBody allowed' (Nat.le_refl _) depth (by omega)
          _ _ (b.withState s) (by simpa [same] using acyclic)⟩
  | suspend body _ =>
      rw [Goal.height] at low
      rw [Goal.buildWithin_suspend]
      exact Plan.returns_suspend (Nat.le_of_succ_le low) acyclic
  | call name arguments =>
      cases found : program.find? name with
      | none =>
          rw [Goal.buildWithin_call_of_none program allowance scope place _
            found]
          exact Plan.returns_fail
      | some relation =>
          have lower := below name (List.mem_singleton_self name) relation found
          have enough := depth_body_le found lower
          rw [Goal.height] at deep
          obtain ⟨allowance, rfl⟩ : ∃ less, allowance = less + 1 :=
            ⟨allowance - 1, by omega⟩
          rw [Goal.buildWithin_call program allowance scope place _ found]
          exact onLower _ lower (Nat.le_trans (height_body_le found) above)
            (guarded.callsBelow_rank found) (by omega) (by omega) depth
            (by omega) _ _ b acyclic
  | times count =>
      rw [Goal.buildWithin_times]
      exact Plan.returns_times count acyclic

/-- A plan starts on every branch in an acyclic state. -/
theorem Guarded.starts (guarded : program.Guarded)
    (above : program.height ≤ highest) {plan : Plan}
    (stems : plan.Stems program highest) {b : Branch}
    (acyclic : b.state.substitution.Acyclic) :
    plan.StartsWithin program (highest + program.length * program.height) b
        (plan.apply program b) ∧
      (plan.apply program b).value.Sound program highest := by
  obtain ⟨low, below, allowed, within, scope, place⟩ := stems
  have deep := Nat.add_le_add low
    (Nat.mul_le_mul_right program.height (Nat.le_trans allowed within))
  obtain ⟨applies, sound⟩ := guarded.returns above low below allowed within _
    deep scope place b acyclic
  rw [Plan.apply_eq_stopAt]
  exact ⟨⟨_, applies, rfl⟩, sound.stopAt _⟩

/-! ### Forcing returns -/

/-- Forcing returns, and leaves what can be forced again. -/
theorem Guarded.forces (guarded : program.Guarded)
    (above : program.height ≤ highest) :
    ∀ suspension : Suspension Task Plan Branch,
      suspension.Sound program highest →
        suspension.ForcesWithin program
            (highest + program.length * program.height)
            (suspension.force program.rules) ∧
          (suspension.force program.rules).value.Sound program highest
  | .task postponed, sound => by
      obtain ⟨acyclic, low⟩ := sound
      have below := guarded.callsBelow_length postponed.body.goal
      obtain ⟨starts, sound⟩ := guarded.starts above (.built low below
        (Nat.le_refl _) (Nat.le_refl _) postponed.body.scope
        postponed.body.place) acyclic
      have builds := guarded.builds below (Nat.le_refl _) _
        (Nat.add_le_add_right low _) postponed.body.scope postponed.body.place
      rw [Suspension.force_task]
      exact ⟨.task builds starts, sound⟩
  | .merge other source, sound => by
      obtain ⟨forces, sound'⟩ := guarded.forces above source sound.2
      rw [Suspension.force_merge]
      exact ⟨.merge forces, sound.1.merge sound'⟩
  | .bind source plan, sound => by
      obtain ⟨forces, sound'⟩ := guarded.forces above source sound.1
      have later := fun b member =>
        guarded.starts above sound.2 (sound'.mature b member)
      rw [Suspension.force_bind]
      exact ⟨.bind forces fun b member => (later b member).1,
        sound'.bindWith sound.2 fun b member => (later b member).2⟩
  | .map _ _, sound => sound.elim

theorem Guarded.remaining (guarded : program.Guarded)
    (above : program.height ≤ highest) {s : Search}
    (sound : s.Sound program highest) (n : Nat) :
    (s.remaining program.rules n).Sound program highest := by
  induction n generalizing s with
  | zero =>
      rw [Stream.remaining_zero]
      exact sound
  | succ n onLess =>
      cases s with
      | nil => exact trivial
      | cons b rest => exact onLess sound.2
      | delay suspension =>
          exact onLess (guarded.forces above suspension sound).2

end Program

/-! ### Nothing else is returned -/

/-- What is bound depends on the mature elements only. -/
theorem Traced.bind_congr_mature {found : Traced Event Search} {plan : Plan}
    {onward onward' : Branch → Traced Event Search}
    (same : ∀ b ∈ found.value.mature, onward b = onward' b) :
    found.bind (fun search => search.bindWith onward plan) =
      found.bind (fun search => search.bindWith onward' plan) := by
  rw [Traced.bind, Traced.bind, Stream.bindWith_congr same]

theorem Goal.BuildsWithin.unique {program : Program} {depth : Nat} {goal : Goal}
    {scope : Scope} {place : Place} {plan plan' : Plan}
    (builds : goal.BuildsWithin program depth scope place plan)
    (builds' : goal.BuildsWithin program depth scope place plan') :
    plan = plan' := by
  induction builds generalizing plan' with
  | disj _ _ onLeft onRight =>
      cases builds' with
      | disj left right => rw [onLeft left, onRight right]
  | conj _ _ onFirst onSecond =>
      cases builds' with
      | conj first second => rw [onFirst first, onSecond second]
  | call found _ onBody =>
      cases builds' with
      | call found' body =>
          obtain rfl := Option.some.inj (found.symm.trans found')
          exact onBody body
      | unknown missing => cases found.symm.trans missing
  | unknown missing =>
      cases builds' with
      | call found _ => cases missing.symm.trans found
      | unknown _ => rfl
  | _ =>
      cases builds'
      rfl

theorem Plan.AppliesWithin.unique {program : Program} {depth : Nat}
    {plan : Plan} {b : Branch} {found found' : Traced Event Search}
    (applies : plan.AppliesWithin program depth b found)
    (applies' : plan.AppliesWithin program depth b found') :
    found = found' := by
  induction applies generalizing found' with
  | eq ends =>
      cases applies' with
      | eq ends' => rw [ends.unique ends']
  | disj _ _ onLeft onRight =>
      cases applies' with
      | disj left right => rw [onLeft left, onRight right]
  | conj _ _ onFirst onSecond =>
      cases applies' with
      | conj first second =>
          obtain rfl := onFirst first
          exact Traced.bind_congr_mature fun between member =>
            onSecond between member (second between member)
  | fresh introduced builds _ onBody =>
      cases applies' with
      | fresh introduced' builds' body =>
          obtain ⟨rfl, rfl⟩ := Prod.mk.inj
            (Option.some.inj (introduced.symm.trans introduced'))
          obtain rfl := builds.unique builds'
          rw [onBody body]
      | outOfVariables used => cases introduced.symm.trans used
  | outOfVariables used =>
      cases applies' with
      | fresh introduced _ _ => cases used.symm.trans introduced
      | outOfVariables _ => rfl
  | _ =>
      cases applies'
      rfl

theorem Plan.StartsWithin.unique {program : Program} {depth : Nat} {plan : Plan}
    {b : Branch} {found found' : Traced Event Search}
    (starts : plan.StartsWithin program depth b found)
    (starts' : plan.StartsWithin program depth b found') : found = found' := by
  obtain ⟨_, applies, rfl⟩ := starts
  obtain ⟨_, applies', rfl⟩ := starts'
  rw [applies.unique applies']

theorem Suspension.ForcesWithin.unique {program : Program} {depth : Nat}
    {suspension : Suspension Task Plan Branch}
    {found found' : Traced Event Search}
    (forces : suspension.ForcesWithin program depth found)
    (forces' : suspension.ForcesWithin program depth found') :
    found = found' := by
  induction forces generalizing found' with
  | task builds starts =>
      cases forces' with
      | task builds' starts' =>
          obtain rfl := builds.unique builds'
          exact starts.unique starts'
  | merge _ onSource =>
      cases forces' with
      | merge source => rw [onSource source]
  | bind _ starts onSource =>
      cases forces' with
      | bind source starts' =>
          obtain rfl := onSource source
          exact Traced.bind_congr_mature fun b member =>
            (starts b member).unique (starts' b member)
  | map _ onSource =>
      cases forces' with
      | map source => rw [onSource source]

/-! ### Collections -/

/-- Whoever finds enough elements or the end of the stream at some position
comes to an end. -/
theorem Stream.exists_collectFrom_ended {ε ι κ α : Type} {rules : Rules ε ι κ α}
    {demand : Demand} {reached : Nat} {progress : Harvest.Progress ε α}
    {s : Stream ι κ α}
    (enough : demand.isMet
        (progress.count + (s.shown rules reached).length) = true ∨
      s.remaining rules reached = .nil) :
    ∃ fuel, (s.collectFrom rules demand fuel progress).value.ending ≠
      .unfinished := by
  induction reached generalizing s progress with
  | zero =>
      refine ⟨1, ?_⟩
      rcases enough with met | ended
      · rw [collectFrom_of_isMet (by simpa using met)]
        simp [Harvest.Progress.close]
      · rw [remaining_zero] at ended
        subst ended
        rw [collectFrom]
        split <;> simp [Harvest.Progress.close]
  | succ reached onLess =>
      by_cases met : demand.isMet progress.count = true
      · refine ⟨1, ?_⟩
        rw [collectFrom_of_isMet met]
        simp [Harvest.Progress.close]
      · cases s with
        | nil =>
            refine ⟨1, ?_⟩
            rw [collectFrom, if_neg met]
            simp [Harvest.Progress.close]
        | cons a rest =>
            rw [add_length_shown_cons] at enough
            obtain ⟨fuel, ended⟩ : ∃ fuel, (rest.collectFrom rules demand fuel
                (progress.add a)).value.ending ≠ .unfinished := onLess enough
            refine ⟨fuel + 1, ?_⟩
            rw [collectFrom_cons met]
            exact ended
        | delay suspension =>
            obtain ⟨fuel, ended⟩ : ∃ fuel, ((suspension.force
                rules).value.collectFrom rules demand fuel (progress.force
                (suspension.force rules).events)).value.ending ≠
                .unfinished := onLess enough
            refine ⟨fuel + 1, ?_⟩
            rw [collectFrom, if_neg met]
            simp only
            split
            · simp [Harvest.Progress.close]
            · exact ended

/-- Wherever the stream is suspended, however far it has been followed, forcing
the suspension returns.  A collection comes to an end if enough elements are
shown somewhere or the stream ends, and it returns if the variables have not run
out before. -/
structure Stream.Productive (program : Program) (depth : Nat) (s : Search) :
    Prop where
  forces : ∀ p suspension, s.remaining program.rules p = .delay suspension →
    ∀ found, suspension.ForcesWithin program depth found ↔
      found = suspension.force program.rules
  ends : ∀ n p, n ≤ (s.shown program.rules p).length ∨
      s.remaining program.rules p = .nil →
    ∃ fuel, (s.collect program.rules fuel (.upTo n)).value.ending ≠ .unfinished
  returns : ∀ n p, n ≤ (s.shown program.rules p).length ∨
      s.remaining program.rules p = .nil →
    (s.reports program.rules p).any Event.isFatal = false →
      ∃ outcome, s.TakeReturns program.rules (.upTo n) outcome

theorem Program.Guarded.productive {program : Program}
    (guarded : program.Guarded) {highest : Nat}
    (above : program.height ≤ highest) {s : Search}
    (sound : s.Sound program highest) :
    s.Productive program (highest + program.length * program.height) where
  forces := by
    intro p suspension left found
    have soundLeft := guarded.remaining above sound p
    rw [left] at soundLeft
    have forces := (guarded.forces above suspension soundLeft).1
    refine ⟨fun forces' => forces'.unique forces, ?_⟩
    rintro rfl
    exact forces
  ends n p enough := by
    apply Stream.exists_collectFrom_ended
    rwa [Harvest.Progress.start, Nat.zero_add, Demand.isMet,
      decide_eq_true_eq]
  returns n p enough calm := by
    obtain ⟨steps, halts⟩ : ∃ steps, s.HaltsAfter program.rules (.upTo n) 0
        steps := by
      apply Stream.HaltsAfter.exists_of_reached calm
      rwa [Nat.zero_add, Demand.isMet, decide_eq_true_eq]
    exact ⟨_, Stream.takeReturns_iff.2 ⟨steps, halts, rfl⟩⟩

namespace Goal

end Goal

end Relational
