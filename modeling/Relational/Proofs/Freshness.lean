/-
Module: Relational.Proofs.Freshness
Purpose: All states of a search are well-formed, and every variable that it
  hands out is new.
Main exports: State.WellFormed, Plan.isBelow, Thread.Sound, Thread.Step.sound,
  Thread.Runs.sound, Goal.search_invariant
-/
import Mathlib.Computability.Primrec.List
import Mathlib.Data.List.Permutation
import Relational.Proofs.Enumeration
import Relational.Proofs.Growth
import Relational.Proofs.Meaning
import Relational.Proofs.Threads

namespace Relational

/-!
The same variable may be handed out on several paths of a search, and that is
as it should be: what one path does is nothing to the others.  On one path a
variable is handed out once.  The counter of the branch is ahead of every
variable in sight, of those in its substitution and of those in the plans that
the branch still has to meet, so the variable that comes next is none of them.

This is proved of one step of a path, then of a whole path, and as a search does
nothing but what its paths do, it holds of the search however its paths are
interleaved.
-/

/-- Every variable is bound at most once, none leads back to itself, and the
counter is ahead of all of them. -/
structure State.WellFormed (s : State) : Prop where
  substitution : s.substitution.WellFormed
  below : s.substitution.isBelow s.counter = true

/-! ### Unification brings in no variables -/

/-- Every variable of the equation is below the bound. -/
def Equation.isBelow (bound : Nat) (equation : Equation) : Bool :=
  equation.left.isBelow bound && equation.right.isBelow bound

namespace Substitution

variable {bound : Nat} {s s' : Substitution}

theorem lookup_isBelow (below : s.isBelow bound = true) {x : Var} {term : Term}
    (found : s.lookup x = some term) : term.isBelow bound = true := by
  have both := List.all_eq_true.1 below _ (mem_mappings_of_lookup found)
  exact (Bool.and_eq_true_iff.1 both).2

theorem walk_isBelow (below : s.isBelow bound = true) {term : Term}
    (termBelow : term.isBelow bound = true) :
    (s.walk term).isBelow bound = true := by
  have follow_isBelow : ∀ limit x, (Term.var x).isBelow bound = true →
      (s.follow limit x).isBelow bound = true := by
    intro limit
    induction limit with
    | zero => exact fun x varBelow => varBelow
    | succ limit shorter =>
        intro x varBelow
        rw [follow]
        split
        · exact varBelow
        · rename_i y found
          exact shorter y (lookup_isBelow below found)
        · rename_i found
          exact lookup_isBelow below found
  cases term with
  | var x => exact follow_isBelow s.size x termBelow
  | atom a => rfl
  | pair first second => exact termBelow

theorem extend_isBelow (below : s.isBelow bound = true) {x : Var} {term : Term}
    (varBelow : (Term.var x).isBelow bound = true)
    (termBelow : term.isBelow bound = true)
    (extended : s.extend x term = .ok s') : s'.isBelow bound = true := by
  obtain ⟨_, rfl⟩ := (extend_eq_ok_iff _ _ _ _).1 extended
  have less : x.id < bound :=
    Term.isBelow_iff.1 varBelow x (by simp [Term.vars])
  rw [isBelow, mappings_prepend, List.all_cons, Bool.and_eq_true]
  exact ⟨by simp [less, termBelow], below⟩

theorem reduce_isBelow (below : s.isBelow bound = true) {equation : Equation}
    (equationBelow : equation.isBelow bound = true) {simpler : List Equation}
    (reduced : s.reduce equation = .ok (simpler, s')) :
    s'.isBelow bound = true ∧ ∀ e ∈ simpler, e.isBelow bound = true := by
  rw [Equation.isBelow, Bool.and_eq_true] at equationBelow
  have leftBelow := walk_isBelow below equationBelow.1
  have rightBelow := walk_isBelow below equationBelow.2
  have step := s.reduction_reduce equation
  generalize s.reduce equation = outcome at reduced step
  cases step with
  | sameVar left right =>
      obtain ⟨rfl, rfl⟩ := Prod.mk.inj (Except.ok.inj reduced)
      exact ⟨below, by simp⟩
  | bindLeft left right different =>
      obtain ⟨rfl, extended, _⟩ := satisfies_of_extend reduced
      exact ⟨extend_isBelow below (left ▸ leftBelow) (right ▸ rightBelow)
        extended, by simp⟩
  | bindRight left right rigid =>
      obtain ⟨rfl, extended, _⟩ := satisfies_of_extend reduced
      exact ⟨extend_isBelow below (right ▸ rightBelow) (left ▸ leftBelow)
        extended, by simp⟩
  | split left right passedOn =>
      obtain ⟨rfl, rfl⟩ := Prod.mk.inj (Except.ok.inj reduced)
      rw [left, Term.isBelow_pair, Bool.and_eq_true] at leftBelow
      rw [right, Term.isBelow_pair, Bool.and_eq_true] at rightBelow
      refine ⟨below, ?_⟩
      simp [Equation.isBelow, leftBelow, rightBelow]
  | exhausted left right passedOn => cases reduced
  | sameAtom left right equal =>
      obtain ⟨rfl, rfl⟩ := Prod.mk.inj (Except.ok.inj reduced)
      exact ⟨below, by simp⟩
  | clash apart => cases reduced

theorem solve_isBelow (below : s.isBelow bound = true) {stack : List Equation}
    (stackBelow : ∀ e ∈ stack, e.isBelow bound = true)
    (solved : s.solve stack = .ok s') : s'.isBelow bound = true := by
  fun_induction solve s stack with
  | case1 s =>
      obtain rfl := Except.ok.inj solved
      exact below
  | case2 s equation rest failure reduced => cases solved
  | case3 s equation rest simpler grown reduced onSimpler =>
      obtain ⟨grownBelow, simplerBelow⟩ :=
        reduce_isBelow below (stackBelow equation (by simp)) reduced
      refine onSimpler grownBelow ?_ solved
      intro e member
      rcases List.mem_append.1 member with replaced | waiting
      · exact simplerBelow e replaced
      · exact stackBelow e (List.mem_cons_of_mem _ waiting)

theorem unify_isBelow (below : s.isBelow bound = true) {left right : Term}
    (leftBelow : left.isBelow bound = true)
    (rightBelow : right.isBelow bound = true)
    (unified : s.unify left right = .ok s') : s'.isBelow bound = true := by
  refine solve_isBelow below ?_ unified
  intro e member
  rw [List.mem_singleton.1 member, Equation.isBelow, leftBelow, rightBelow]
  rfl

theorem isBelow_mono {bound' : Nat} (less : bound ≤ bound')
    (below : s.isBelow bound = true) : s.isBelow bound' = true := by
  rw [isBelow, List.all_eq_true] at below ⊢
  intro mapping member
  have both := below mapping member
  rw [Bool.and_eq_true, decide_eq_true_eq] at both ⊢
  exact ⟨Nat.lt_of_lt_of_le both.1 less, Term.isBelow_mono less both.2⟩

end Substitution

/-- Unifying terms below the counter keeps a state well-formed, and keeps its
mappings. -/
theorem State.WellFormed.unify {s : State} (wellFormed : s.WellFormed)
    {left right : Term} (leftBelow : left.isBelow s.counter = true)
    (rightBelow : right.isBelow s.counter = true) {substitution : Substitution}
    (unified : s.substitution.unify left right = .ok substitution) :
    (s.withSubstitution substitution).WellFormed ∧
      s.substitution.mappings <:+ substitution.mappings := by
  have grows :=
    Substitution.grows_of_solve wellFormed.substitution.acyclic unified
  exact ⟨⟨wellFormed.substitution.of_grows grows,
    Substitution.unify_isBelow wellFormed.below leftBelow rightBelow unified⟩,
    grows.suffix⟩

/-! ### Variables of plans -/

/-- Every variable that the body mentions is below the bound. -/
def Closure.isBelow (bound : Nat) (body : Closure) : Bool :=
  body.goal.isBelow bound && body.scope.isBelow bound

/-- Every variable that the plan mentions is below the bound. -/
def Plan.isBelow (bound : Nat) : Plan → Bool
  | .succeed => true
  | .fail => true
  | .eq left right => left.isBelow bound && right.isBelow bound
  | .disj left right => left.isBelow bound && right.isBelow bound
  | .conj first second => first.isBelow bound && second.isBelow bound
  | .fresh _ body => body.isBelow bound
  | .suspend body => body.isBelow bound
  | .times _ => true

theorem Goal.isBelow_mono {bound bound' : Nat} (less : bound ≤ bound')
    {goal : Goal} (below : goal.isBelow bound = true) :
    goal.isBelow bound' = true := by
  induction goal with
  | eq left right =>
      simp only [isBelow, every, Bool.and_eq_true] at below ⊢
      exact ⟨Expr.isBelow_mono less below.1, Expr.isBelow_mono less below.2⟩
  | disj left right onLeft onRight =>
      simp only [isBelow, every, Bool.and_eq_true] at below ⊢
      exact ⟨onLeft below.1, onRight below.2⟩
  | conj first second onFirst onSecond =>
      simp only [isBelow, every, Bool.and_eq_true] at below ⊢
      exact ⟨onFirst below.1, onSecond below.2⟩
  | fresh name body onBody => exact onBody below
  | suspend body onBody => exact onBody below
  | call name arguments =>
      simp only [isBelow, every, List.all_eq_true] at below ⊢
      exact fun argument member =>
        Expr.isBelow_mono less (below argument member)
  | _ => rfl

theorem Program.isBelow_mono {bound bound' : Nat} (less : bound ≤ bound')
    {program : Program} (below : program.isBelow bound = true) :
    program.isBelow bound' = true := by
  rw [isBelow, every, List.all_eq_true] at below ⊢
  exact fun entry member => Goal.isBelow_mono less (below entry member)

theorem Closure.isBelow_mono {bound bound' : Nat} (less : bound ≤ bound')
    {body : Closure} (below : body.isBelow bound = true) :
    body.isBelow bound' = true := by
  rw [isBelow, Bool.and_eq_true] at below ⊢
  exact ⟨Goal.isBelow_mono less below.1, Scope.isBelow_mono less below.2⟩

theorem Plan.isBelow_mono {bound bound' : Nat} (less : bound ≤ bound')
    {plan : Plan} (below : plan.isBelow bound = true) :
    plan.isBelow bound' = true := by
  induction plan with
  | eq left right =>
      simp only [isBelow, Bool.and_eq_true] at below ⊢
      exact ⟨Term.isBelow_mono less below.1, Term.isBelow_mono less below.2⟩
  | disj left right onLeft onRight =>
      simp only [isBelow, Bool.and_eq_true] at below ⊢
      exact ⟨onLeft below.1, onRight below.2⟩
  | conj first second onFirst onSecond =>
      simp only [isBelow, Bool.and_eq_true] at below ⊢
      exact ⟨onFirst below.1, onSecond below.2⟩
  | fresh name body => exact Closure.isBelow_mono less below
  | suspend body => exact Closure.isBelow_mono less below
  | _ => rfl

section

variable {program : Program} {bound : Nat}

/-- Building a goal brings in no variables but those of the goal, of its scope
and of the relations. -/
theorem Goal.buildWithin_isBelow (programBelow : program.isBelow bound = true)
    (allowance : Nat) {goal : Goal} (below : goal.isBelow bound = true)
    {scope : Scope} (scopeBelow : scope.isBelow bound = true) (place : Place) :
    (goal.buildWithin program allowance scope place).isBelow bound = true := by
  induction allowance using Nat.strongRecOn generalizing goal scope place with
  | ind allowance onLess =>
  induction goal generalizing place with
  | succeed => rw [buildWithin_succeed]; rfl
  | fail => rw [buildWithin_fail]; rfl
  | never => rw [buildWithin_never]; rfl
  | always => rw [buildWithin_always]; rfl
  | eq left right =>
      simp only [isBelow, every, Bool.and_eq_true] at below
      rw [buildWithin_eq, Plan.isBelow, Bool.and_eq_true]
      exact ⟨Expr.build_isBelow below.1 scopeBelow _,
        Expr.build_isBelow below.2 scopeBelow _⟩
  | disj left right onLeft onRight =>
      simp only [isBelow, every, Bool.and_eq_true] at below
      rw [buildWithin_disj, Plan.isBelow, Bool.and_eq_true]
      exact ⟨onLeft below.1 _, onRight below.2 _⟩
  | conj first second onFirst onSecond =>
      simp only [isBelow, every, Bool.and_eq_true] at below
      rw [buildWithin_conj, Plan.isBelow, Bool.and_eq_true]
      exact ⟨onFirst below.1 _, onSecond below.2 _⟩
  | fresh name body _ =>
      rw [buildWithin_fresh]
      exact Bool.and_eq_true_iff.2 ⟨below, scopeBelow⟩
  | suspend body _ =>
      rw [buildWithin_suspend]
      exact Bool.and_eq_true_iff.2 ⟨below, scopeBelow⟩
  | call name arguments =>
      cases found : program.find? name with
      | none =>
          rw [buildWithin_call_of_none program allowance scope place _ found]
          rfl
      | some relation =>
          have body := Program.every_body programBelow found
          have inner := relation.scope_isBelow below scopeBelow (.part 0 place)
          cases allowance with
          | zero =>
              rw [buildWithin_call_zero program scope place _ found]
              exact Bool.and_eq_true_iff.2 ⟨body, inner⟩
          | succ allowance =>
              rw [buildWithin_call program allowance scope place _ found]
              exact onLess allowance (Nat.lt_succ_self _) body inner _
  | times count => rw [buildWithin_times]; rfl

theorem Closure.build_isBelow (programBelow : program.isBelow bound = true)
    {body : Closure} (below : body.isBelow bound = true) :
    (body.build program).isBelow bound = true := by
  rw [isBelow, Bool.and_eq_true] at below
  exact Goal.buildWithin_isBelow programBelow _ below.1 below.2 _

end

/-! ### Paths -/

namespace Thread

variable {program : Program} {start t t' : Thread}

/-- The state in which the path is. -/
def state (t : Thread) : State := t.branch.state

variable (program) in
/-- The state is well-formed, and its counter is ahead of every variable that
may still be met. -/
structure Sound (t : Thread) : Prop where
  wellFormed : t.state.WellFormed
  pendingBelow : ∀ plan ∈ t.pending, plan.isBelow t.state.counter = true
  programBelow : program.isBelow t.state.counter = true

namespace Sound

theorem first {b : Branch} {plan : Plan} {pending : List Plan}
    (sound : Sound program ⟨b, plan :: pending⟩) :
    plan.isBelow b.state.counter = true :=
  sound.pendingBelow plan (List.mem_cons_self ..)

/-- The first plan is replaced by others, in a state with the same counter. -/
theorem replace (plans : List Plan) {b b' : Branch} {plan : Plan}
    {pending : List Plan} (sound : Sound program ⟨b, plan :: pending⟩)
    (wellFormed : b'.state.WellFormed)
    (counter : b'.state.counter = b.state.counter)
    (below : ∀ other ∈ plans, other.isBelow b.state.counter = true) :
    Sound program ⟨b', plans ++ pending⟩ := by
  refine ⟨wellFormed, ?_, ?_⟩
  · intro other member
    change other.isBelow b'.state.counter = true
    rw [counter]
    rcases List.mem_append.1 member with replaced | waiting
    · exact below other replaced
    · exact sound.pendingBelow other (List.mem_cons_of_mem _ waiting)
  · change program.isBelow b'.state.counter = true
    rw [counter]
    exact sound.programBelow

/-- The first plan introduces a variable, and its body takes its place. -/
theorem fresh {b : Branch} {name : String} {body : Closure}
    {pending : List Plan}
    (sound : Sound program ⟨b, .fresh name body :: pending⟩) {x : Var}
    {s : State} (introduced : b.state.fresh? = some (x, s)) :
    Sound program ⟨b.withState s,
      (body.withVar name x b.choices).build program :: pending⟩ := by
  obtain ⟨sameId, rfl⟩ := State.fresh?_eq_some_iff.1 introduced
  have more := Nat.le_succ b.state.counter
  have programBelow := Program.isBelow_mono more sound.programBelow
  have newest : (Term.var x).isBelow (b.state.counter + 1) = true := by
    simp [Term.isBelow, Term.vars, sameId]
  have older := Bool.and_eq_true_iff.1 (Closure.isBelow_mono more sound.first)
  have bodyBelow : (body.withVar name x b.choices).isBelow
      (b.state.counter + 1) = true :=
    Bool.and_eq_true_iff.2
      ⟨older.1, Bool.and_eq_true_iff.2 ⟨newest, older.2⟩⟩
  refine ⟨⟨sound.wellFormed.substitution,
    Substitution.isBelow_mono more sound.wellFormed.below⟩, ?_, programBelow⟩
  refine List.forall_mem_cons.2
    ⟨Closure.build_isBelow programBelow bodyBelow, ?_⟩
  intro other waiting
  exact Plan.isBelow_mono more
    (sound.pendingBelow other (List.mem_cons_of_mem _ waiting))

end Sound

/-- A step hands out the variable that the counter names, and only then the
counter moves on. -/
theorem Step.numbered {next : Option Var} (step : Step program t next t') :
    next.toList.map Var.id = List.range' t.state.counter next.toList.length ∧
      t'.state.counter = t.state.counter + next.toList.length := by
  cases step with
  | fresh introduced =>
      obtain ⟨sameId, rfl⟩ := State.fresh?_eq_some_iff.1 introduced
      exact ⟨congrArg (fun id => [id]) sameId, rfl⟩
  | _ => exact ⟨rfl, rfl⟩

/-- A step keeps the path sound, and keeps the mappings. -/
theorem Step.sound {next : Option Var} (step : Step program t next t')
    (sound : t.Sound program) :
    t'.Sound program ∧
      t.state.substitution.mappings <:+ t'.state.substitution.mappings := by
  cases step with
  | succeed =>
      exact ⟨sound.replace [] sound.wellFormed rfl (List.forall_mem_nil _),
        List.suffix_refl _⟩
  | eq unified =>
      have both := Bool.and_eq_true_iff.1 sound.first
      obtain ⟨wellFormed, suffix⟩ :=
        sound.wellFormed.unify both.1 both.2 unified
      exact ⟨sound.replace [] wellFormed rfl (List.forall_mem_nil _), suffix⟩
  | disjLeft =>
      have both := Bool.and_eq_true_iff.1 sound.first
      exact ⟨sound.replace [_] sound.wellFormed rfl
        (List.forall_mem_singleton.2 both.1), List.suffix_refl _⟩
  | disjRight =>
      have both := Bool.and_eq_true_iff.1 sound.first
      exact ⟨sound.replace [_] sound.wellFormed rfl
        (List.forall_mem_singleton.2 both.2), List.suffix_refl _⟩
  | conj =>
      have both := Bool.and_eq_true_iff.1 sound.first
      exact ⟨sound.replace [_, _] sound.wellFormed rfl
        (List.forall_mem_cons.2 ⟨both.1, List.forall_mem_singleton.2 both.2⟩),
        List.suffix_refl _⟩
  | fresh introduced =>
      obtain ⟨_, same⟩ := State.fresh?_eq_some_iff.1 introduced
      refine ⟨sound.fresh introduced, ?_⟩
      rw [same]
      exact List.suffix_refl _
  | @suspend b pending body =>
      have below : (body.onBranch b.choices).isBelow b.state.counter = true :=
        sound.first
      have built := Closure.build_isBelow sound.programBelow below
      exact ⟨sound.replace [_] sound.wellFormed rfl
        (List.forall_mem_singleton.2 built), List.suffix_refl _⟩
  | times within =>
      exact ⟨sound.replace [] sound.wellFormed rfl (List.forall_mem_nil _),
        List.suffix_refl _⟩

/-- The variables that are handed out on a path are numbered one after the
other, from the counter at its beginning to the counter at its end. -/
theorem Runs.numbered {handed : List Var} (runs : Runs program start handed t) :
    handed.map Var.id = List.range' start.state.counter handed.length ∧
      t.state.counter = start.state.counter + handed.length := by
  induction runs with
  | refl => exact ⟨rfl, rfl⟩
  | tail _ step before =>
      obtain ⟨numbers, counter⟩ := before
      obtain ⟨numbers', counter'⟩ := step.numbered
      rw [counter] at numbers' counter'
      refine ⟨?_, by rw [counter', List.length_append, Nat.add_assoc]⟩
      rw [List.map_append, numbers, numbers', List.length_append,
        List.range'_append_1]

/-- A path from a sound thread stays sound, and keeps the mappings. -/
theorem Runs.sound {handed : List Var} (runs : Runs program start handed t)
    (sound : start.Sound program) :
    t.Sound program ∧
      start.state.substitution.mappings <:+ t.state.substitution.mappings := by
  induction runs with
  | refl => exact ⟨sound, List.suffix_refl _⟩
  | tail _ step before =>
      obtain ⟨soundBefore, suffix⟩ := before
      obtain ⟨soundAfter, suffix'⟩ := step.sound soundBefore
      exact ⟨soundAfter, suffix.trans suffix'⟩

theorem Runs.increasing {handed : List Var}
    (runs : Runs program start handed t) :
    (handed.map Var.id).Pairwise (· < ·) := by
  rw [runs.numbered.1]
  exact List.pairwise_lt_range'

theorem Runs.counter_le {handed : List Var}
    (runs : Runs program start handed t) :
    start.state.counter ≤ t.state.counter :=
  runs.numbered.2 ▸ Nat.le_add_right _ _

/-- The variables that have been handed out on a path are below its counter. -/
theorem Runs.handed_lt {handed : List Var}
    (runs : Runs program start handed t) {x : Var} (member : x ∈ handed) :
    x.id < t.state.counter := by
  obtain ⟨numbers, counter⟩ := runs.numbered
  have listed := List.mem_map_of_mem (f := Var.id) member
  rw [numbers, List.mem_range'_1] at listed
  rw [counter]
  exact listed.2

/-- The counter stays within the range of words. -/
theorem Runs.counter_le_capacity {handed : List Var}
    (runs : Runs program start handed t)
    (word : start.state.counter ≤ Var.capacity) :
    t.state.counter ≤ Var.capacity := by
  induction runs with
  | refl => exact word
  | tail _ step before =>
      cases step with
      | fresh introduced => exact (Plan.counter_of_fresh? introduced).2
      | _ => exact before

/-- A path hands out the variable that its counter names. -/
theorem Reports.introduced_id {x : Var} (reports : t.Reports (.introduced x)) :
    x.id = t.state.counter := by
  cases reports with
  | introduced handedOut => exact (State.fresh?_eq_some_iff.1 handedOut).1

theorem Reports.outOfVariables_counter (reports : t.Reports .outOfVariables) :
    Var.capacity ≤ t.state.counter := by
  cases reports with
  | outOfVariables used => exact State.fresh?_eq_none_iff.1 used

end Thread

/-! ### Searches -/

namespace Goal

variable {program : Program} {goal : Goal} {scope : Scope} {s : State}

/-- The thread with which the search of a goal begins. -/
def thread (program : Program) (goal : Goal) (scope : Scope) (place : Place)
    (s : State) : Thread :=
  ⟨.root s, [goal.build program scope place]⟩

theorem applyTo_tracks (place : Place) :
    (goal.applyTo program scope place s).Tracks program
      (goal.thread program scope place s) [] :=
  Plan.apply_tracks ⟨[], .refl⟩

theorem thread_sound (wellFormed : s.WellFormed)
    (goalBelow : goal.isBelow s.counter = true)
    (scopeBelow : scope.isBelow s.counter = true)
    (programBelow : program.isBelow s.counter = true) (place : Place) :
    (goal.thread program scope place s).Sound program :=
  ⟨wellFormed, List.forall_mem_singleton.2
    (buildWithin_isBelow programBelow _ goalBelow scopeBelow place),
    programBelow⟩

/-- Every state that a search shows is well-formed, has a counter that has not
gone back, and holds the mappings from which the search began; there is a path
to it.  Whatever the search reports is reported on one of its paths.  On every
path the variables that are handed out have increasing numbers, and each of them
has a larger number than all that were handed out before it, than all variables
of the substitution at that moment, and than all variables that the plans still
to be met and the relations mention.  There is no variable to hand out exactly
at the last word, and up to there the counter never goes back. -/
theorem search_invariant (wellFormed : s.WellFormed)
    (goalBelow : goal.isBelow s.counter = true)
    (scopeBelow : scope.isBelow s.counter = true)
    (programBelow : program.isBelow s.counter = true) (place : Place) :
    (∀ n b, (goal.applyTo program scope place s).value.sight program.rules n =
        some (.yield b) →
      b.state.WellFormed ∧ s.counter ≤ b.state.counter ∧
      s.substitution.mappings <:+ b.state.substitution.mappings ∧
      (goal.thread program scope place s).Reaches program ⟨b, []⟩) ∧
    (∀ n event, event ∈ (goal.applyTo program scope place s).events ++
        (goal.applyTo program scope place s).value.reports program.rules n →
      ∃ t, (goal.thread program scope place s).Reaches program t ∧
        t.Reports event) ∧
    (∀ handed t,
      Thread.Runs program (goal.thread program scope place s) handed t →
      (handed.map Var.id).Pairwise (· < ·) ∧
      (∀ x, t.Reports (.introduced x) →
        (∀ y ∈ handed, y.id < x.id) ∧
        t.state.substitution.isBelow x.id = true ∧
        (∀ plan ∈ t.pending, plan.isBelow x.id = true) ∧
        program.isBelow x.id = true) ∧
      (s.counter < 2 ^ 64 → t.state.counter < 2 ^ 64 ∧
        (t.Reports .outOfVariables → t.state.counter = 2 ^ 64 - 1))) ∧
    ∀ current : State, current.counter < 2 ^ 64 →
      (current.fresh? = none ↔ current.counter = 2 ^ 64 - 1) ∧
      ∀ x next, current.fresh? = some (x, next) →
        x.id = current.counter ∧ next.counter = current.counter + 1 ∧
          next.counter < 2 ^ 64 := by
  have sound := thread_sound wellFormed goalBelow scopeBelow programBelow place
  have tracks : (goal.applyTo program scope place s).Tracks program
      (goal.thread program scope place s) [] := applyTo_tracks place
  have lastWord : Var.capacity = 2 ^ 64 - 1 := rfl
  refine ⟨?_, ?_, ?_, ?_⟩
  · intro n b shown
    obtain ⟨handed, runs⟩ := tracks.value.sight shown
    obtain ⟨soundThere, suffix⟩ := runs.sound sound
    exact ⟨soundThere.wellFormed, runs.counter_le, suffix, handed, runs⟩
  · intro n event member
    rcases List.mem_append.1 member with atOnce | later
    · exact tracks.events event atOnce
    · exact tracks.value.reports later
  · intro handed t runs
    obtain ⟨soundThere, _⟩ := runs.sound sound
    refine ⟨runs.increasing, ?_, ?_⟩
    · intro x reports
      rw [reports.introduced_id]
      exact ⟨fun y member => runs.handed_lt member,
        soundThere.wellFormed.below, soundThere.pendingBelow,
        soundThere.programBelow⟩
    · intro word
      have within := runs.counter_le_capacity (Nat.le_sub_one_of_lt word)
      refine ⟨by omega, fun reports => ?_⟩
      exact Nat.le_antisymm within reports.outOfVariables_counter
  · intro current word
    rw [State.fresh?_eq_none_iff, lastWord]
    refine ⟨by omega, ?_⟩
    intro x next introduced
    obtain ⟨sameId, rfl⟩ := State.fresh?_eq_some_iff.1 introduced
    have inRange := x.inRange
    exact ⟨sameId, rfl, by simp only; omega⟩

/-- A variable is introduced behind a suspension, and made equal to one that is
bound already. -/
theorem search_invariant_suspended :
    ∃ (x y : Var) (s : State) (b : Branch),
      s = ⟨Substitution.empty.prepend ⟨x, .nil⟩, 1⟩ ∧ y.id = 1 ∧
      ((Goal.suspend (.fresh "y" (.eq (.name "y") (.var x)))).applyTo [] []
        (.root 0) s).value.sight (Program.rules []) 1 = some (.yield b) ∧
      b.state = ⟨s.substitution.prepend ⟨y, .nil⟩, 2⟩ ∧ b.state.WellFormed ∧
      ∃ t : Thread, t.Reports (.introduced y) ∧
        t.state.substitution.isBelow y.id = true := by
  let x : Var := ⟨0, by decide⟩
  let y : Var := ⟨1, by decide⟩
  let s : State := ⟨Substitution.empty.prepend ⟨x, .nil⟩, 1⟩
  let goal : Goal := .suspend (.fresh "y" (.eq (.name "y") (.var x)))
  let b : Branch := .root ⟨s.substitution.prepend ⟨y, .nil⟩, 2⟩
  have built : s.substitution.Built :=
    .extend .empty rfl ((Substitution.extend_eq_ok_iff _ _ _ _).2 ⟨rfl, rfl⟩)
  have shown : (goal.applyTo [] [] (.root 0) s).value.sight (Program.rules []) 1
      = some (.yield b) := by cbv
  have reported : .introduced y ∈ (goal.applyTo [] [] (.root 0) s).events ++
      (goal.applyTo [] [] (.root 0) s).value.reports (Program.rules []) 1 := by
    cbv
    exact List.mem_singleton_self _
  obtain ⟨found, reports, onPaths, _⟩ := @search_invariant [] goal [] s
    ⟨built.wellFormed, rfl⟩ rfl rfl rfl (.root 0)
  obtain ⟨t, ⟨handed, runs⟩, reportsThere⟩ := reports 1 _ reported
  exact ⟨x, y, s, b, rfl, rfl, shown, rfl, (found 1 b shown).1, t, reportsThere,
    ((onPaths handed t runs).2.1 y reportsThere).2.1⟩

end Goal

end Relational
