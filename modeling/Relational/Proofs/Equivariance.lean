/-
Module: Relational.Proofs.Equivariance
Purpose: Unification, reification and the building of goals do not depend on
  which variables stand for the unknowns.
Main exports: Substitution.rename, Failure.rename, Substitution.unify_rename,
  Substitution.reify_rename, Goal.rename, Program.rename, Goal.build_rename
-/
import Relational.Proofs.Paths

namespace Relational

/-!
A renaming that keeps variables apart goes through everything that is done with
a substitution.  Variables are compared with each other and with nothing else,
so each test has the same outcome before and after, and each term that is found
is the renamed one.  An answer has no variables left to be renamed, so there the
renaming disappears.

Building a goal compares no variables at all, so it goes along with every
renaming.
-/

/-! ### Renamed substitutions -/

/-- The mapping with every variable replaced by another one. -/
def Mapping.rename (ρ : Var → Var) (mapping : Mapping) : Mapping :=
  ⟨ρ mapping.var, mapping.term.rename ρ⟩

/-- The mappings in the same order, with every variable replaced by another
one. -/
def Substitution.rename (ρ : Var → Var) (s : Substitution) : Substitution :=
  ⟨s.mappings.map (Mapping.rename ρ), s.size, by simp [s.size_eq]⟩

/-- The same cause, with every variable replaced by another one. -/
def Failure.rename (ρ : Var → Var) : Failure → Failure
  | .mismatch left right => .mismatch (left.rename ρ) (right.rename ρ)
  | .occurs x term => .occurs (ρ x) (term.rename ρ)

/-- The equation with every variable replaced by another one. -/
def Equation.rename (ρ : Var → Var) (equation : Equation) : Equation :=
  ⟨equation.left.rename ρ, equation.right.rename ρ, equation.allowance⟩

theorem Term.anyVar_rename (ρ : Var → Var) (test : Var → Bool) (term : Term) :
    (term.rename ρ).anyVar test = term.anyVar (test ∘ ρ) := by
  rw [anyVar_eq_any, anyVar_eq_any, vars_rename, List.any_map]

theorem Term.rename_subst (ρ : Var → Var) (θ : Valuation) (term : Term) :
    (term.subst θ).rename ρ = term.subst fun x => (θ x).rename ρ := by
  induction term with
  | var x => rfl
  | atom a => rfl
  | pair first second onFirst onSecond => simp [onFirst, onSecond]

/-- Only a variable becomes a variable. -/
theorem Term.rename_eq_var {ρ : Var → Var} {term : Term} {y : Var}
    (renamed : term.rename ρ = .var y) : ∃ x, term = .var x ∧ ρ x = y := by
  obtain ⟨x, rfl, same⟩ := eq_var_of_subst renamed
  exact ⟨x, rfl, Term.var.inj same⟩

/-- Terms that cannot be made equal cannot be after a renaming. -/
theorem Term.Clash.rename (ρ : Var → Var) {left right : Term}
    (apart : left.Clash right) : (left.rename ρ).Clash (right.rename ρ) := by
  cases apart with
  | atoms different => exact .atoms different
  | atomPair => simpa using .atomPair
  | pairAtom => simpa using .pairAtom

theorem Equation.passedOn_rename (ρ : Var → Var) (equation : Equation) :
    (equation.rename ρ).passedOn = equation.passedOn := by
  obtain ⟨left, right, allowance⟩ := equation
  cases left with
  | var x => cases allowance <;> rfl
  | atom a => rfl
  | pair first second => simp [Equation.rename, passedOn]

namespace Substitution

@[simp] theorem size_rename (ρ : Var → Var) (s : Substitution) :
    (s.rename ρ).size = s.size := rfl

/-! ### Walking and the occurs check -/

section

variable {ρ : Var → Var} (injective : Function.Injective ρ)
  (s : Substitution)

include injective

theorem lookup_rename (x : Var) :
    (s.rename ρ).lookup (ρ x) = (s.lookup x).map (Term.rename ρ) := by
  have along : ∀ mappings : List Mapping,
      lookup.go (ρ x) (mappings.map (Mapping.rename ρ)) =
        (lookup.go x mappings).map (Term.rename ρ) := by
    intro mappings
    induction mappings with
    | nil => rfl
    | cons mapping older onOlder =>
        rw [List.map_cons, lookup.go, lookup.go, Mapping.rename]
        by_cases same : mapping.var = x
        · rw [if_pos same, if_pos (congrArg ρ same)]
          rfl
        · rw [if_neg same, if_neg fun images => same (injective images),
            onOlder]
  exact along s.mappings

theorem follow_rename (limit : Nat) (x : Var) :
    (s.rename ρ).follow limit (ρ x) = (s.follow limit x).rename ρ := by
  induction limit generalizing x with
  | zero => rfl
  | succ limit shorter =>
      rw [follow, follow, lookup_rename injective]
      cases s.lookup x with
      | none => rfl
      | some term =>
          cases term with
          | var y => exact shorter y
          | atom a => rfl
          | pair first second => simp

theorem walk_rename (term : Term) :
    (s.rename ρ).walk (term.rename ρ) = (s.walk term).rename ρ := by
  cases term with
  | var x => exact follow_rename injective s s.size x
  | atom a => rfl
  | pair first second => simp [walk]

theorem occursWithin_rename (x : Var) (limit : Nat) (term : Term) :
    (s.rename ρ).occursWithin (ρ x) limit (term.rename ρ) =
      s.occursWithin x limit term := by
  induction limit generalizing term with
  | zero =>
      rw [occursWithin, occursWithin, Term.anyVar_rename]
      congr 1
      funext y
      exact decide_eq_decide.2 injective.eq_iff
  | succ limit closer =>
      rw [occursWithin, occursWithin, Term.anyVar_rename]
      congr 1
      funext y
      have walked := walk_rename injective s (.var y)
      simp only [Term.rename_var] at walked
      simp only [Function.comp_apply, walked]
      cases s.walk (.var y) with
      | var z => exact decide_eq_decide.2 injective.eq_iff
      | atom a => rfl
      | pair first second =>
          simpa using closer (.pair first second)

theorem occurs_rename (x : Var) (term : Term) :
    (s.rename ρ).occurs (ρ x) (term.rename ρ) = s.occurs x term :=
  occursWithin_rename injective s x s.size term

/-! ### Unification

The outcome of each step is the renamed one, whether it is a substitution or the
failure that is reported. -/

theorem extend_rename (x : Var) (term : Term) :
    (s.rename ρ).extend (ρ x) (term.rename ρ) =
      ((s.extend x term).map (Substitution.rename ρ)).mapError
        (Failure.rename ρ) := by
  rw [extend, extend, occurs_rename injective]
  split
  · rfl
  · rfl

theorem extendStep_rename (x : Var) (term : Term) :
    ((s.rename ρ).extend (ρ x) (term.rename ρ)).map
        (([] : List Equation), ·) =
      (((s.extend x term).map (([] : List Equation), ·)).map
        (Prod.map (List.map (Equation.rename ρ)) (Substitution.rename ρ))
          ).mapError (Failure.rename ρ) := by
  rw [extend_rename injective]
  cases s.extend x term with
  | ok grown => rfl
  | error failure => rfl

theorem reduce_rename (equation : Equation) :
    (s.rename ρ).reduce (equation.rename ρ) =
      ((s.reduce equation).map
        (Prod.map (List.map (Equation.rename ρ)) (Substitution.rename ρ))
          ).mapError (Failure.rename ρ) := by
  have leftWalked := walk_rename injective s equation.left
  have rightWalked := walk_rename injective s equation.right
  have step := s.reduction_reduce equation
  generalize s.reduce equation = outcome at step
  apply reduce_eq_of_reduction
  cases step with
  | sameVar left right =>
      rw [left] at leftWalked
      rw [right] at rightWalked
      exact .sameVar leftWalked rightWalked
  | @bindLeft x term left right different =>
      rw [left] at leftWalked
      rw [right] at rightWalked
      rw [← extendStep_rename injective]
      refine .bindLeft leftWalked rightWalked ?_
      intro same
      obtain ⟨y, rfl, images⟩ := Term.rename_eq_var same
      exact different (congrArg Term.var (injective images))
  | bindRight left right rigid =>
      rw [left] at leftWalked
      rw [right] at rightWalked
      rw [← extendStep_rename injective]
      refine .bindRight leftWalked rightWalked ?_
      intro y same
      obtain ⟨x, isVar, _⟩ := Term.rename_eq_var same
      exact rigid x isVar
  | split left right passedOn =>
      rw [left, Term.rename_pair] at leftWalked
      rw [right, Term.rename_pair] at rightWalked
      rw [← equation.passedOn_rename ρ] at passedOn
      exact .split leftWalked rightWalked passedOn
  | exhausted left right passedOn =>
      rw [left, Term.rename_pair] at leftWalked
      rw [right, Term.rename_pair] at rightWalked
      rw [← equation.passedOn_rename ρ] at passedOn
      simpa [Except.map, Except.mapError, Failure.rename] using
        Reduction.exhausted leftWalked rightWalked passedOn
  | sameAtom left right equal =>
      rw [left] at leftWalked
      rw [right] at rightWalked
      exact .sameAtom leftWalked rightWalked equal
  | clash apart =>
      have apart' : ((s.rename ρ).walk (equation.rename ρ).left).Clash
          ((s.rename ρ).walk (equation.rename ρ).right) := by
        rw [Equation.rename, leftWalked, rightWalked]
        exact apart.rename ρ
      simpa [Except.map, Except.mapError, Failure.rename, Equation.rename,
        leftWalked, rightWalked] using Reduction.clash apart'

theorem solve_rename (stack : List Equation) :
    (s.rename ρ).solve (stack.map (Equation.rename ρ)) =
      ((s.solve stack).map (Substitution.rename ρ)).mapError
        (Failure.rename ρ) := by
  fun_induction solve s stack with
  | case1 s => rw [List.map_nil, solve]; rfl
  | case2 s equation rest failure reduced =>
      have renamed := reduce_rename injective s equation
      rw [reduced] at renamed
      rw [List.map_cons, solve]
      split
      · rename_i failure' reduced'
        rw [reduced'] at renamed
        exact congrArg Except.error (Except.error.inj renamed)
      · rename_i reduced'
        cases reduced'.symm.trans renamed
  | case3 s equation rest simpler grown reduced onSimpler =>
      have renamed := reduce_rename injective s equation
      rw [reduced] at renamed
      rw [List.map_cons, solve]
      split
      · rename_i reduced'
        cases reduced'.symm.trans renamed
      · rename_i simpler' grown' reduced'
        obtain ⟨rfl, rfl⟩ :=
          Prod.mk.inj (Except.ok.inj (reduced'.symm.trans renamed))
        rw [← List.map_append]
        exact onSimpler

/-- Renaming everything renames the outcome of unification. -/
theorem unify_rename (left right : Term) :
    (s.rename ρ).unify (left.rename ρ) (right.rename ρ) =
      ((s.unify left right).map (Substitution.rename ρ)).mapError
        (Failure.rename ρ) :=
  solve_rename injective s [⟨left, right, Var.capacity⟩]

/-! ### Answers -/

theorem resolveWithin_rename (limit : Nat) (term : Term) :
    (s.rename ρ).resolveWithin limit (term.rename ρ) =
      (s.resolveWithin limit term).rename ρ := by
  induction limit generalizing term with
  | zero => rfl
  | succ limit closer =>
      rw [resolveWithin, resolveWithin, Term.subst_rename, Term.rename_subst]
      congr 1
      funext x
      have walked := walk_rename injective s (.var x)
      simp only [Term.rename_var] at walked
      simp only [Function.comp_apply, walked]
      cases s.walk (.var x) with
      | var y => rfl
      | atom a => rfl
      | pair first second => simpa using closer (.pair first second)

/-- An answer is the same whatever the variables are that it does not
mention. -/
theorem reify_rename (term : Term) :
    (s.rename ρ).reify (term.rename ρ) = s.reify term := by
  have resolved : (s.rename ρ).resolve (term.rename ρ) =
      (s.resolve term).rename ρ :=
    resolveWithin_rename injective s s.size term
  calc (s.rename ρ).reify (term.rename ρ)
      = ((s.rename ρ).resolve (term.rename ρ)).canonical := rfl
    _ = ((s.resolve term).rename ρ).canonical := by rw [resolved]
    _ = (s.resolve term).canonical :=
        Term.canonical_rename fun _ _ _ _ images => injective images
    _ = s.reify term := rfl

end

end Substitution

/-! ### Renamed goals -/

/-- The expression with every variable replaced by another one. -/
def Expr.rename (ρ : Var → Var) : Expr → Expr
  | .value v => .value v
  | .var x => .var (ρ x)
  | .name n => .name n
  | .pair first second => .pair (first.rename ρ) (second.rename ρ)
  | .term t => .term (t.rename ρ)
  | .copies count item => .copies count (item.rename ρ)
  | .nested depth item => .nested depth (item.rename ρ)

/-- The goal with every variable replaced by another one. -/
def Goal.rename (ρ : Var → Var) : Goal → Goal
  | .succeed => .succeed
  | .fail => .fail
  | .never => .never
  | .always => .always
  | .eq left right => .eq (left.rename ρ) (right.rename ρ)
  | .disj left right => .disj (left.rename ρ) (right.rename ρ)
  | .conj first second => .conj (first.rename ρ) (second.rename ρ)
  | .fresh name body => .fresh name (body.rename ρ)
  | .suspend body => .suspend (body.rename ρ)
  | .call name arguments => .call name (arguments.map (Expr.rename ρ))
  | .times count => .times count

/-- The relation with every variable of its body replaced by another one. -/
def Relation.rename (ρ : Var → Var) (relation : Relation) : Relation :=
  { relation with body := relation.body.rename ρ }

/-- The relations with every variable replaced by another one. -/
def Program.rename (ρ : Var → Var) (program : Program) : Program :=
  program.map fun entry => (entry.1, entry.2.rename ρ)

/-- The body with every variable replaced by another one, also in its scope. -/
def Closure.rename (ρ : Var → Var) (body : Closure) : Closure :=
  ⟨body.goal.rename ρ, body.scope.rename ρ, body.place⟩

/-- The plan with every variable replaced by another one. -/
def Plan.rename (ρ : Var → Var) : Plan → Plan
  | .succeed => .succeed
  | .fail => .fail
  | .eq left right => .eq (left.rename ρ) (right.rename ρ)
  | .disj left right => .disj (left.rename ρ) (right.rename ρ)
  | .conj first second => .conj (first.rename ρ) (second.rename ρ)
  | .fresh name body => .fresh name (body.rename ρ)
  | .suspend body => .suspend (body.rename ρ)
  | .times count => .times count

/-- The event with every variable replaced by another one. -/
def Event.rename (ρ : Var → Var) : Event → Event
  | .introduced x => .introduced (ρ x)
  | .failed failure => .failed (failure.rename ρ)
  | event => event

section

variable (ρ : Var → Var)

theorem Expr.build_rename (scope : Scope) (place : Place) (expr : Expr) :
    (expr.rename ρ).build (scope.rename ρ) place =
      (expr.build scope place).rename ρ := by
  induction expr generalizing place with
  | value v => rfl
  | var x => rfl
  | name n => exact Scope.find_image _ scope n
  | pair first second onFirst onSecond =>
      rw [rename, build, build, Term.rename_pair, onFirst, onSecond]
  | term t => rfl
  | copies count item onItem =>
      rw [rename, build, build, Term.rename, subst_tabulate, onItem]
      rfl
  | nested depth item onItem =>
      rw [rename, build, build, Term.rename, subst_wrap, onItem]
      rfl

theorem Goal.buildArguments_rename (scope : Scope) (place : Place)
    (arguments : List Expr) :
    buildArguments (scope.rename ρ) place (arguments.map (Expr.rename ρ)) =
      (buildArguments scope place arguments).map (Term.rename ρ) := by
  apply List.ext_getElem
  · simp [buildArguments]
  · intro index within within'
    simp only [buildArguments, List.getElem_map, List.getElem_mapIdx,
      Expr.build_rename]

theorem Program.find?_rename (program : Program) (name : String) :
    (program.rename ρ).find? name =
      (program.find? name).map (Relation.rename ρ) := by
  induction program with
  | nil => rfl
  | cons entry older onOlder =>
      rcases entry with ⟨key, relation⟩
      by_cases same : name = key
      · subst same
        simp [rename, find?]
      · have different : (name == key) = false := by simpa using same
        simpa [rename, find?, List.lookup_cons, different] using onOlder

theorem Relation.closure_rename (relation : Relation) (terms : List Term)
    (place : Place) :
    (relation.rename ρ).closure (terms.map (Term.rename ρ)) place =
      (relation.closure terms place).rename ρ :=
  congrArg (fun scope => (⟨relation.body.rename ρ, scope, place⟩ : Closure))
    (relation.scope_image (fun x => .var (ρ x)) terms).symm

/-- Building a renamed goal gives the renamed plan. -/
theorem Goal.buildWithin_rename (program : Program) (allowance : Nat)
    (goal : Goal) (scope : Scope) (place : Place) :
    (goal.rename ρ).buildWithin (program.rename ρ) allowance (scope.rename ρ)
        place =
      (goal.buildWithin program allowance scope place).rename ρ := by
  induction allowance using Nat.strongRecOn generalizing goal scope place with
  | ind allowance onLess =>
  induction goal generalizing place with
  | succeed => simp only [rename, buildWithin_succeed, Plan.rename]
  | fail => simp only [rename, buildWithin_fail, Plan.rename]
  | never => simp only [rename, buildWithin_never, Plan.rename]; rfl
  | always => simp only [rename, buildWithin_always, Plan.rename]; rfl
  | eq left right =>
      rw [rename, buildWithin_eq, buildWithin_eq, Expr.build_rename,
        Expr.build_rename]
      rfl
  | disj left right onLeft onRight =>
      rw [rename, buildWithin_disj, buildWithin_disj, onLeft, onRight]
      rfl
  | conj first second onFirst onSecond =>
      rw [rename, buildWithin_conj, buildWithin_conj, onFirst, onSecond]
      rfl
  | fresh name body _ => rw [rename, buildWithin_fresh, buildWithin_fresh]; rfl
  | suspend body _ => rw [rename, buildWithin_suspend, buildWithin_suspend]; rfl
  | call name arguments =>
      have found' := program.find?_rename ρ name
      cases found : program.find? name with
      | none =>
          rw [found] at found'
          rw [rename, buildWithin_call_of_none _ _ _ _ _ found,
            buildWithin_call_of_none _ _ _ _ _ found']
          rfl
      | some relation =>
          rw [found] at found'
          have body := relation.closure_rename ρ
            (buildArguments scope (.part 0 place) arguments) (.part 1 place)
          rw [← buildArguments_rename] at body
          cases allowance with
          | zero =>
              rw [rename, buildWithin_call_zero _ _ _ _ found,
                buildWithin_call_zero _ _ _ _ found', body]
              rfl
          | succ allowance =>
              have inside := onLess allowance (Nat.lt_succ_self _)
                relation.body (relation.scope
                  (buildArguments scope (.part 0 place) arguments))
                (.part 1 place)
              rw [rename, buildWithin_call _ _ _ _ _ found,
                buildWithin_call _ _ _ _ _ found']
              exact (congrArg (fun scope => buildWithin _ _ _ scope _)
                (congrArg Closure.scope body)).trans inside
  | times count => rw [rename, buildWithin_times, buildWithin_times]; rfl

theorem Goal.build_rename (program : Program) (goal : Goal) (scope : Scope)
    (place : Place) :
    (goal.rename ρ).build (program.rename ρ) (scope.rename ρ) place =
      (goal.build program scope place).rename ρ := by
  have allowances : (program.rename ρ).allowance = program.allowance :=
    List.length_map ..
  rw [build, build, allowances, buildWithin_rename]

theorem Closure.build_rename (program : Program) (body : Closure) :
    (body.rename ρ).build (program.rename ρ) = (body.build program).rename ρ :=
  Goal.build_rename ρ program body.goal body.scope body.place

end

end Relational
