/-
Module: Relational.Proofs.Meaning
Purpose: What goals say about the values of variables.
Main exports: Valuation.AgreesBelow, Term.isBelow, Goal.isBelow, Expr.eval,
  Goal.HoldsWith, Goal.Holds, Goal.HoldsWith.congr, Expr.subst_build
-/
import Relational.Proofs.Derivation

namespace Relational

/-!
The meaning of a goal makes no mention of states or searches.  It is a
condition on the values of the variables: an equation holds when both sides
have equal values, a new variable stands for some value, and a relation holds
when its body does.  As the rules that follow are inductive, relations are the
least ones that are closed under their bodies.

A scope plays two parts here.  For a search it gives terms to names, for the
meaning of a goal it gives values to them.  Where it is read for its values,
no variable is replaced in it any more.
-/

/-- The valuations give the same values to the variables below a bound. -/
def Valuation.AgreesBelow (bound : Nat) (θ θ' : Valuation) : Prop :=
  ∀ x : Var, x.id < bound → θ' x = θ x

theorem Valuation.AgreesBelow.refl (bound : Nat) (θ : Valuation) :
    θ.AgreesBelow bound θ :=
  fun _ _ => rfl

theorem Valuation.AgreesBelow.symm {bound : Nat} {θ θ' : Valuation}
    (agree : θ.AgreesBelow bound θ') : θ'.AgreesBelow bound θ :=
  fun x below => (agree x below).symm

theorem Valuation.AgreesBelow.trans {bound : Nat} {θ θ' θ'' : Valuation}
    (agree : θ.AgreesBelow bound θ') (agree' : θ'.AgreesBelow bound θ'') :
    θ.AgreesBelow bound θ'' :=
  fun x below => (agree' x below).trans (agree x below)

theorem Valuation.AgreesBelow.mono {bound bound' : Nat} {θ θ' : Valuation}
    (agree : θ.AgreesBelow bound' θ') (less : bound ≤ bound') :
    θ.AgreesBelow bound θ' :=
  fun x below => agree x (Nat.lt_of_lt_of_le below less)

/-! ### Variables below a bound -/

/-- Every variable of the term is below the bound. -/
def Term.isBelow (bound : Nat) (term : Term) : Bool :=
  term.vars.all fun x => x.id < bound

/-- Every variable of the terms is below the bound. -/
def Scope.isBelow (bound : Nat) (scope : Scope) : Bool :=
  scope.all fun entry => entry.2.isBelow bound

/-- Every variable of the mappings is below the bound. -/
def Substitution.isBelow (bound : Nat) (s : Substitution) : Bool :=
  s.mappings.all fun mapping =>
    decide (mapping.var.id < bound) && mapping.term.isBelow bound

/-- Every variable written in the expression is below the bound. -/
def Expr.isBelow (bound : Nat) : Expr → Bool
  | .value _ => true
  | .var x => decide (x.id < bound)
  | .name _ => true
  | .pair first second => first.isBelow bound && second.isBelow bound
  | .term t => t.isBelow bound
  | .copies _ item => item.isBelow bound
  | .nested _ item => item.isBelow bound

/-- Every variable written in the goal is below the bound. -/
def Goal.isBelow (bound : Nat) (goal : Goal) : Bool :=
  goal.every (Expr.isBelow bound)

/-- Every variable written in the relations is below the bound. -/
def Program.isBelow (bound : Nat) (program : Program) : Bool :=
  program.every (Expr.isBelow bound)

namespace Term

theorem isBelow_iff {bound : Nat} {term : Term} :
    term.isBelow bound = true ↔ ∀ x ∈ term.vars, x.id < bound := by
  simp [isBelow]

@[simp] theorem isBelow_pair (bound : Nat) (first second : Term) :
    (Term.pair first second).isBelow bound =
      (first.isBelow bound && second.isBelow bound) := by
  simp [isBelow, vars]

theorem isBelow_mono {bound bound' : Nat} (less : bound ≤ bound') {term : Term}
    (below : term.isBelow bound = true) : term.isBelow bound' = true := by
  rw [isBelow_iff] at below ⊢
  intro x member
  exact Nat.lt_of_lt_of_le (below x member) less

/-- The value of a term depends on its variables only. -/
theorem subst_eq_of_agreesBelow {bound : Nat} {θ θ' : Valuation}
    (agree : θ.AgreesBelow bound θ') {term : Term}
    (below : term.isBelow bound = true) : term.subst θ' = term.subst θ := by
  apply subst_congr
  intro x member
  exact agree x (isBelow_iff.1 below x member)

end Term

theorem Scope.isBelow_mono {bound bound' : Nat} (less : bound ≤ bound')
    {scope : Scope} (below : scope.isBelow bound = true) :
    scope.isBelow bound' = true := by
  rw [isBelow, List.all_eq_true] at below ⊢
  intro entry member
  exact Term.isBelow_mono less (below entry member)

theorem Scope.find_isBelow {bound : Nat} {scope : Scope}
    (below : scope.isBelow bound = true) (name : String) :
    (scope.find name).isBelow bound = true := by
  induction scope with
  | nil => rfl
  | cons entry older onOlder =>
      rcases entry with ⟨key, term⟩
      simp only [isBelow, List.all_cons, Bool.and_eq_true] at below
      by_cases same : name = key
      · subst same
        simpa [find] using below.1
      · have different : (name == key) = false := by simpa using same
        simpa [find, List.lookup_cons, different] using onOlder below.2

namespace Expr

theorem tabulate_isBelow {bound : Nat} {item : Nat → Term}
    (items : ∀ index, (item index).isBelow bound = true) (count : Nat)
    {tail : Term} (below : tail.isBelow bound = true) :
    (tabulate item count tail).isBelow bound = true := by
  induction count generalizing tail with
  | zero => exact below
  | succ count shorter =>
      apply shorter
      simp [items count, below]

theorem wrap_isBelow {bound : Nat} (depth : Nat) {term : Term}
    (below : term.isBelow bound = true) :
    (wrap depth term).isBelow bound = true := by
  induction depth generalizing term with
  | zero => exact below
  | succ depth shallower =>
      apply shallower
      rw [Term.isBelow_pair, below]
      rfl

theorem isBelow_mono {bound bound' : Nat} (less : bound ≤ bound') {expr : Expr}
    (below : expr.isBelow bound = true) : expr.isBelow bound' = true := by
  induction expr with
  | value v => rfl
  | var x =>
      simp only [isBelow, decide_eq_true_eq] at below ⊢
      exact Nat.lt_of_lt_of_le below less
  | name n => rfl
  | pair first second onFirst onSecond =>
      simp only [isBelow, Bool.and_eq_true] at below ⊢
      exact ⟨onFirst below.1, onSecond below.2⟩
  | term t => exact Term.isBelow_mono less below
  | copies count item onItem => exact onItem below
  | nested depth item onItem => exact onItem below

theorem build_isBelow {bound : Nat} {expr : Expr}
    (below : expr.isBelow bound = true) {scope : Scope}
    (scopeBelow : scope.isBelow bound = true) (place : Place) :
    (expr.build scope place).isBelow bound = true := by
  induction expr generalizing place with
  | value v => rfl
  | var x => simpa [build, isBelow, Term.isBelow, Term.vars] using below
  | name n => exact Scope.find_isBelow scopeBelow n
  | pair first second onFirst onSecond =>
      simp only [isBelow, Bool.and_eq_true] at below
      simp [build, onFirst below.1, onSecond below.2]
  | term t => exact below
  | copies count item onItem =>
      exact tabulate_isBelow (fun _ => onItem below _) count rfl
  | nested depth item onItem => exact wrap_isBelow depth (onItem below _)

end Expr

theorem Relation.scope_isBelow {bound : Nat} (relation : Relation)
    {arguments : List Expr}
    (below : arguments.all (Expr.isBelow bound) = true) {scope : Scope}
    (scopeBelow : scope.isBelow bound = true) (place : Place) :
    (relation.scope (Goal.buildArguments scope place arguments)).isBelow
      bound = true := by
  rw [Scope.isBelow, List.all_eq_true]
  intro entry member
  rw [Relation.scope, List.mem_reverse] at member
  obtain ⟨index, argument, built⟩ := List.mem_mapIdx.1
    (List.of_mem_zip member).2
  rw [← built]
  exact Expr.build_isBelow (List.all_eq_true.1 below _ (List.getElem_mem _))
    scopeBelow _

/-! ### Values -/

/-- The values of the terms of a scope. -/
def Scope.image (θ : Valuation) (scope : Scope) : Scope :=
  scope.map fun entry => (entry.1, entry.2.subst θ)

theorem Scope.find_image (θ : Valuation) (scope : Scope) (name : String) :
    (scope.image θ).find name = (scope.find name).subst θ := by
  induction scope with
  | nil => rfl
  | cons entry older onOlder =>
      rcases entry with ⟨key, term⟩
      by_cases same : name = key
      · subst same
        simp [image, find]
      · have different : (name == key) = false := by simpa using same
        simpa [image, find, List.lookup_cons, different] using onOlder

theorem Scope.image_eq_of_agreesBelow {bound : Nat} {θ θ' : Valuation}
    (agree : θ.AgreesBelow bound θ') {scope : Scope}
    (below : scope.isBelow bound = true) : scope.image θ' = scope.image θ := by
  apply List.map_congr_left
  intro entry member
  rw [Term.subst_eq_of_agreesBelow agree
    (List.all_eq_true.1 below entry member)]

namespace Expr

/-- The value of an expression in a scope of values. -/
def eval (θ : Valuation) (scope : Scope) : Expr → Term
  | .value v => .atom ⟨v, .root 0⟩
  | .var x => θ x
  | .name n => scope.find n
  | .pair first second => .pair (first.eval θ scope) (second.eval θ scope)
  | .term t => t.subst θ
  | .copies count item => tabulate (fun _ => item.eval θ scope) count .nil
  | .nested depth item => wrap depth (item.eval θ scope)

/-- The value of an expression depends on its variables only. -/
theorem eval_eq_of_agreesBelow {bound : Nat} {θ θ' : Valuation}
    (agree : θ.AgreesBelow bound θ') {expr : Expr}
    (below : expr.isBelow bound = true) (scope : Scope) :
    expr.eval θ' scope = expr.eval θ scope := by
  induction expr with
  | value v => rfl
  | var x => exact agree x (by simpa [isBelow] using below)
  | name n => rfl
  | pair first second onFirst onSecond =>
      simp only [isBelow, Bool.and_eq_true] at below
      rw [eval, eval, onFirst below.1, onSecond below.2]
  | term t => exact Term.subst_eq_of_agreesBelow agree below
  | copies count item onItem => rw [eval, eval, onItem below]
  | nested depth item onItem => rw [eval, eval, onItem below]

theorem map_eval_eq_of_agreesBelow {bound : Nat} {θ θ' : Valuation}
    (agree : θ.AgreesBelow bound θ') {arguments : List Expr}
    (below : arguments.all (isBelow bound) = true) (scope : Scope) :
    arguments.map (eval θ' scope) = arguments.map (eval θ scope) := by
  apply List.map_congr_left
  intro argument member
  exact eval_eq_of_agreesBelow agree
    (List.all_eq_true.1 below argument member) scope

theorem subst_tabulate (θ : Valuation) (item : Nat → Term) (count : Nat)
    (tail : Term) :
    (tabulate item count tail).subst θ =
      tabulate (fun index => (item index).subst θ) count (tail.subst θ) := by
  induction count generalizing tail with
  | zero => rfl
  | succ count shorter => rw [tabulate, tabulate, shorter, Term.subst_pair]

theorem subst_wrap (θ : Valuation) (depth : Nat) (term : Term) :
    (wrap depth term).subst θ = wrap depth (term.subst θ) := by
  induction depth generalizing term with
  | zero => rfl
  | succ depth shallower =>
      rw [wrap, wrap, shallower, Term.subst_pair]
      rfl

/-- The value of the term that an expression describes is the value of the
expression. -/
theorem subst_build {θ : Valuation} {expr : Expr}
    (plain : expr.isPlain = true) {scope values : Scope}
    (similar : (scope.image θ).Similar values) (place : Place) :
    ((expr.build scope place).subst θ).eqv (expr.eval θ values) = true := by
  induction expr generalizing place with
  | value v =>
      have itself : v.eqv v = true := plain
      simp [build, eval, Atom.eqv, itself]
  | var x => exact Term.eqv_refl _
  | name n =>
      rw [build, ← Scope.find_image]
      exact similar.find n
  | pair first second onFirst onSecond =>
      simp only [isPlain, Bool.and_eq_true] at plain
      simp [build, eval, onFirst plain.1, onSecond plain.2]
  | term t => exact Term.eqv_refl _
  | copies count item onItem =>
      rw [build, eval, subst_tabulate]
      exact tabulate_eqv (fun _ => onItem plain _) count (Term.eqv_refl _)
  | nested depth item onItem =>
      rw [build, eval, subst_wrap]
      exact wrap_eqv depth (onItem plain _)

end Expr

theorem Relation.scope_image (relation : Relation) (θ : Valuation)
    (terms : List Term) :
    (relation.scope terms).image θ =
      relation.scope (terms.map (Term.subst θ)) := by
  rw [Scope.image, scope, scope, List.map_reverse, List.zip_map_right]
  rfl

/-- The values of the terms that an argument list describes are the values of
its expressions. -/
theorem Goal.subst_buildArguments {θ : Valuation} {arguments : List Expr}
    (plain : arguments.all Expr.isPlain = true) {scope values : Scope}
    (similar : (scope.image θ).Similar values) (place : Place) :
    List.Forall₂ (fun term term' => term.eqv term' = true)
      ((buildArguments scope place arguments).map (Term.subst θ))
      (arguments.map (Expr.eval θ values)) := by
  rw [List.forall₂_iff_get]
  constructor
  · simp [buildArguments]
  · intro index within within'
    simp only [buildArguments, List.get_eq_getElem, List.getElem_map,
      List.getElem_mapIdx]
    exact Expr.subst_build (List.all_eq_true.1 plain _ (List.getElem_mem _))
      similar _

/-- The values that a call hands to the body of a relation are those of its
arguments. -/
theorem Relation.scope_image_similar (relation : Relation) {θ : Valuation}
    {arguments : List Expr} (plain : arguments.all Expr.isPlain = true)
    {scope values : Scope} (similar : (scope.image θ).Similar values)
    (place : Place) :
    ((relation.scope (Goal.buildArguments scope place arguments)).image
      θ).Similar (relation.scope (arguments.map (Expr.eval θ values))) := by
  rw [Relation.scope_image]
  exact relation.scope_similar
    (Goal.subst_buildArguments plain similar place)

/-! ### Goals -/

namespace Goal

/-- The goal holds under the valuation of variables and in the scope of values,
with so many values chosen for new variables. -/
inductive HoldsWith (program : Program) (θ : Valuation) :
    Nat → Goal → Scope → Prop where
  | succeed {values : Scope} : HoldsWith program θ 0 .succeed values
  | always {values : Scope} : HoldsWith program θ 0 .always values
  | eq {left right : Expr} {values : Scope}
      (equal : (left.eval θ values).eqv (right.eval θ values) = true) :
      HoldsWith program θ 0 (.eq left right) values
  | disjLeft {count : Nat} {left right : Goal} {values : Scope}
      (onLeft : HoldsWith program θ count left values) :
      HoldsWith program θ count (.disj left right) values
  | disjRight {count : Nat} {left right : Goal} {values : Scope}
      (onRight : HoldsWith program θ count right values) :
      HoldsWith program θ count (.disj left right) values
  | conj {count count' : Nat} {first second : Goal} {values : Scope}
      (onFirst : HoldsWith program θ count first values)
      (onSecond : HoldsWith program θ count' second values) :
      HoldsWith program θ (count + count') (.conj first second) values
  /-- A new variable stands for some value. -/
  | fresh {count : Nat} {name : String} {body : Goal} {values : Scope}
      (value : Term)
      (inside : HoldsWith program θ count body ((name, value) :: values)) :
      HoldsWith program θ (count + 1) (.fresh name body) values
  | suspend {count : Nat} {body : Goal} {values : Scope}
      (inside : HoldsWith program θ count body values) :
      HoldsWith program θ count (.suspend body) values
  | call {count : Nat} {name : String} {arguments : List Expr}
      {values : Scope} (relation : Relation)
      (found : program.find? name = some relation)
      (inside : HoldsWith program θ count relation.body
        (relation.scope (arguments.map (Expr.eval θ values)))) :
      HoldsWith program θ count (.call name arguments) values
  | times {number : Nat} {values : Scope} (positive : 0 < number) :
      HoldsWith program θ 0 (.times number) values

/-- The goal holds under the valuation of variables and in the scope of
values. -/
def Holds (program : Program) (θ : Valuation) (goal : Goal)
    (values : Scope) : Prop :=
  ∃ count, HoldsWith program θ count goal values

/-- What a goal says depends on the variables that are written in it and in the
relations. -/
theorem HoldsWith.congr {program : Program} {bound : Nat}
    (programBelow : program.isBelow bound = true) {θ θ' : Valuation}
    (agree : θ.AgreesBelow bound θ') {count : Nat} {goal : Goal}
    {values : Scope} (holds : HoldsWith program θ count goal values)
    (below : goal.isBelow bound = true) :
    HoldsWith program θ' count goal values := by
  induction holds with
  | succeed => exact .succeed
  | always => exact .always
  | eq equal =>
      simp only [isBelow, every, Bool.and_eq_true] at below
      apply HoldsWith.eq
      rw [Expr.eval_eq_of_agreesBelow agree below.1,
        Expr.eval_eq_of_agreesBelow agree below.2]
      exact equal
  | disjLeft _ inside =>
      simp only [isBelow, every, Bool.and_eq_true] at below
      exact .disjLeft (inside below.1)
  | disjRight _ inside =>
      simp only [isBelow, every, Bool.and_eq_true] at below
      exact .disjRight (inside below.2)
  | conj _ _ onFirst onSecond =>
      simp only [isBelow, every, Bool.and_eq_true] at below
      exact .conj (onFirst below.1) (onSecond below.2)
  | fresh value _ inside => exact .fresh value (inside below)
  | suspend _ inside => exact .suspend (inside below)
  | @call count name arguments values relation found _ inside =>
      refine .call relation found ?_
      rw [Expr.map_eval_eq_of_agreesBelow agree below]
      exact inside (Program.every_body programBelow found)
  | times positive => exact .times positive

end Goal

end Relational
