/-
Module: Relational.Proofs.Similarity
Purpose: Equal terms, substitutions and scopes cannot be told apart by
  unification or by building expressions.
Main exports: Substitution.Similar, Scope.Similar, State.Similar,
  Expr.isPlain, Expr.build_similar, Substitution.Similar.unify
-/
import Mathlib.Data.List.Forall2
import Relational.Expr
import Relational.Proofs.Valuation
import Relational.State

namespace Relational

/-!
An expression that is built in two places gives two terms that differ in the
origins of their atoms.  The terms are equal all the same, unless a value
differs from itself.  So whatever is computed from them is equal too; this
module says so for everything on the way from expressions to states.

Two substitutions are similar when they hold equal mappings in the same order.
-/

/-- Mappings of one variable to equal terms. -/
def Mapping.Similar (left right : Mapping) : Prop :=
  left.var = right.var ∧ left.term.eqv right.term = true

/-- Substitutions that hold equal mappings in the same order. -/
def Substitution.Similar (s s' : Substitution) : Prop :=
  List.Forall₂ Mapping.Similar s.mappings s'.mappings

/-- Scopes that give equal terms to the same names. -/
def Scope.Similar (scope scope' : Scope) : Prop :=
  List.Forall₂ (fun entry entry' => entry.1 = entry'.1 ∧
    entry.2.eqv entry'.2 = true) scope scope'

/-- States with similar substitutions and the same counter. -/
structure State.Similar (s s' : State) : Prop where
  substitution : s.substitution.Similar s'.substitution
  counter : s.counter = s'.counter

/-- Equations with equal sides and the same allowance. -/
structure Equation.Similar (equation equation' : Equation) : Prop where
  left : equation.left.eqv equation'.left = true
  right : equation.right.eqv equation'.right = true
  allowance : equation.allowance = equation'.allowance

namespace Substitution

theorem Similar.refl (s : Substitution) : s.Similar s :=
  List.forall₂_same.2 fun mapping _ => ⟨rfl, mapping.term.eqv_refl⟩

theorem Similar.symm {s s' : Substitution} (similar : s.Similar s') :
    s'.Similar s := by
  refine List.Forall₂.flip (similar.imp ?_)
  intro mapping mapping' pair
  exact ⟨pair.1.symm, Term.eqv_comm pair.2⟩

theorem Similar.trans {s s' s'' : Substitution} (first : s.Similar s')
    (second : s'.Similar s'') : s.Similar s'' := by
  have along : ∀ {mappings mappings' mappings'' : List Mapping},
      List.Forall₂ Mapping.Similar mappings mappings' →
        List.Forall₂ Mapping.Similar mappings' mappings'' →
          List.Forall₂ Mapping.Similar mappings mappings'' := by
    intro mappings mappings' mappings'' onward further
    induction onward generalizing mappings'' with
    | nil => exact further
    | cons head _ onTail =>
        cases further with
        | cons head' tail' =>
            exact .cons ⟨head.1.trans head'.1, Term.eqv_trans head.2 head'.2⟩
              (onTail tail')
  exact along first second

theorem Similar.size_eq {s s' : Substitution} (similar : s.Similar s') :
    s.size = s'.size := by
  rw [s.size_eq, s'.size_eq]
  exact List.Forall₂.length_eq similar

theorem Similar.prepend {s s' : Substitution} (similar : s.Similar s')
    (x : Var) {term term' : Term} (equal : term.eqv term' = true) :
    (s.prepend ⟨x, term⟩).Similar (s'.prepend ⟨x, term'⟩) :=
  .cons ⟨rfl, equal⟩ similar

/-- Similarity is the equality that runs. -/
theorem eqv_iff_similar {s s' : Substitution} :
    s.eqv s' = true ↔ s.Similar s' := by
  have compare : ∀ mappings mappings' : List Mapping,
      eqv.go mappings mappings' = true ↔
        List.Forall₂ Mapping.Similar mappings mappings' := by
    intro mappings
    induction mappings with
    | nil =>
        intro mappings'
        cases mappings' with
        | nil => simp [eqv.go]
        | cons mapping' older' => simp [eqv.go]
    | cons mapping older onOlder =>
        intro mappings'
        cases mappings' with
        | nil => simp [eqv.go]
        | cons mapping' older' =>
            simp [eqv.go, onOlder, Mapping.eqv, Mapping.Similar]
  exact compare s.mappings s'.mappings

end Substitution

theorem State.Similar.refl (s : State) : s.Similar s :=
  ⟨.refl _, rfl⟩

theorem State.Similar.symm {s s' : State} (similar : s.Similar s') :
    s'.Similar s :=
  ⟨similar.substitution.symm, similar.counter.symm⟩

theorem State.Similar.trans {s s' s'' : State} (first : s.Similar s')
    (second : s'.Similar s'') : s.Similar s'' :=
  ⟨first.substitution.trans second.substitution,
    first.counter.trans second.counter⟩

theorem State.eqv_iff_similar {s s' : State} :
    s.eqv s' = true ↔ s.Similar s' := by
  simp only [State.eqv, Bool.and_eq_true, Substitution.eqv_iff_similar,
    decide_eq_true_eq]
  exact ⟨fun both => ⟨both.1, both.2⟩,
    fun similar => ⟨similar.substitution, similar.counter⟩⟩

theorem Scope.Similar.refl (scope : Scope) : scope.Similar scope :=
  List.forall₂_same.2 fun entry _ => ⟨rfl, entry.2.eqv_refl⟩

theorem Scope.Similar.symm {scope scope' : Scope}
    (similar : scope.Similar scope') : scope'.Similar scope := by
  refine List.Forall₂.flip (List.Forall₂.imp ?_ similar)
  intro entry entry' pair
  exact ⟨pair.1.symm, Term.eqv_comm pair.2⟩

/-- A name stands for equal terms in similar scopes. -/
theorem Scope.Similar.find {scope scope' : Scope}
    (similar : scope.Similar scope') (name : String) :
    (scope.find name).eqv (scope'.find name) = true := by
  induction similar with
  | nil => exact Term.eqv_refl _
  | @cons entry entry' older older' pair _ onOlder =>
      rcases entry with ⟨key, term⟩
      rcases entry' with ⟨key', term'⟩
      rcases pair with ⟨rfl, equal⟩
      by_cases same : name = key
      · subst same
        simpa [Scope.find] using equal
      · have different : (name == key) = false := by simpa using same
        simpa [Scope.find, List.lookup_cons, different] using onOlder

/-! ### Building expressions -/

/-- No value of the expression differs from itself. -/
def Expr.isPlain : Expr → Bool
  | .value v => v.eqv v
  | .var _ => true
  | .name _ => true
  | .pair first second => first.isPlain && second.isPlain
  | .term _ => true
  | .copies _ item => item.isPlain
  | .nested _ item => item.isPlain

namespace Expr

theorem tabulate_eqv {item item' : Nat → Term}
    (equal : ∀ index, (item index).eqv (item' index) = true) (count : Nat)
    {tail tail' : Term} (tails : tail.eqv tail' = true) :
    (tabulate item count tail).eqv (tabulate item' count tail') = true := by
  induction count generalizing tail tail' with
  | zero => exact tails
  | succ count shorter =>
      apply shorter
      simp [equal count, tails]

theorem wrap_eqv (depth : Nat) {term term' : Term}
    (equal : term.eqv term' = true) :
    (wrap depth term).eqv (wrap depth term') = true := by
  induction depth generalizing term term' with
  | zero => exact equal
  | succ depth shallower =>
      apply shallower
      simp [equal, Term.eqv_refl]

/-- Where no value differs from itself, it does not matter where an expression
is built. -/
theorem build_similar {expr : Expr} (plain : expr.isPlain = true)
    {scope scope' : Scope} (similar : scope.Similar scope')
    (place place' : Place) :
    (expr.build scope place).eqv (expr.build scope' place') = true := by
  induction expr generalizing place place' with
  | value v =>
      have itself : v.eqv v = true := plain
      simp [build, Atom.eqv, itself]
  | var x => exact Term.eqv_refl _
  | name n => exact similar.find n
  | pair first second onFirst onSecond =>
      simp only [isPlain, Bool.and_eq_true] at plain
      simp [build, onFirst plain.1, onSecond plain.2]
  | term t => exact Term.eqv_refl _
  | copies count item onItem =>
      exact tabulate_eqv (fun _ => onItem plain _ _) count (Term.eqv_refl _)
  | nested depth item onItem => exact wrap_eqv depth (onItem plain _ _)

end Expr

/-! ### Walking and the occurs check -/

namespace Term

theorem eq_var_of_eqv {term : Term} {x : Var}
    (equal : (Term.var x).eqv term = true) : term = .var x := by
  cases term with
  | var y =>
      rw [eqv_var, decide_eq_true_eq] at equal
      rw [equal]
  | _ => simp [eqv] at equal

theorem exists_atom_of_eqv {term : Term} {a : Atom}
    (equal : (Term.atom a).eqv term = true) :
    ∃ b, term = .atom b ∧ a.eqv b = true := by
  cases term with
  | atom b => exact ⟨b, rfl, equal⟩
  | _ => simp [eqv] at equal

theorem exists_pair_of_eqv {term first second : Term}
    (equal : (Term.pair first second).eqv term = true) :
    ∃ first' second', term = .pair first' second' ∧
      first.eqv first' = true ∧ second.eqv second' = true := by
  cases term with
  | pair first' second' =>
      rw [eqv_pair, Bool.and_eq_true] at equal
      exact ⟨first', second', rfl, equal⟩
  | _ => simp [eqv] at equal

/-- Equal terms have the same variables in the same order. -/
theorem vars_eq_of_eqv {left right : Term} (equal : left.eqv right = true) :
    left.vars = right.vars := by
  induction left generalizing right with
  | var x => rw [eq_var_of_eqv equal]
  | atom a =>
      obtain ⟨b, rfl, _⟩ := exists_atom_of_eqv equal
      rfl
  | pair first second onFirst onSecond =>
      obtain ⟨first', second', rfl, firsts, seconds⟩ :=
        exists_pair_of_eqv equal
      rw [vars, vars, onFirst firsts, onSecond seconds]

end Term

namespace Substitution

/-- A variable is bound to equal terms or unbound in both. -/
theorem Similar.lookup {s s' : Substitution} (similar : s.Similar s')
    (x : Var) :
    (s.lookup x = none ∧ s'.lookup x = none) ∨
      ∃ term term', s.lookup x = some term ∧ s'.lookup x = some term' ∧
        term.eqv term' = true := by
  have search : ∀ {mappings mappings' : List Mapping},
      List.Forall₂ Mapping.Similar mappings mappings' →
        (lookup.go x mappings = none ∧ lookup.go x mappings' = none) ∨
          ∃ term term', lookup.go x mappings = some term ∧
            lookup.go x mappings' = some term' ∧ term.eqv term' = true := by
    intro mappings mappings' pairs
    induction pairs with
    | nil => exact Or.inl ⟨rfl, rfl⟩
    | @cons mapping mapping' older older' pair _ onOlder =>
        rw [lookup.go, lookup.go, ← pair.1]
        by_cases same : mapping.var = x
        · rw [if_pos same, if_pos same]
          exact Or.inr ⟨_, _, rfl, rfl, pair.2⟩
        · rw [if_neg same, if_neg same]
          exact onOlder
  exact search similar

theorem Similar.follow {s s' : Substitution} (similar : s.Similar s')
    (limit : Nat) (x : Var) :
    (s.follow limit x).eqv (s'.follow limit x) = true := by
  induction limit generalizing x with
  | zero => exact Term.eqv_refl _
  | succ limit shorter =>
      rw [Substitution.follow, Substitution.follow]
      rcases similar.lookup x with ⟨unbound, unbound'⟩ |
        ⟨term, term', bound, bound', equal⟩
      · rw [unbound, unbound']
        exact Term.eqv_refl _
      · rw [bound, bound']
        cases term with
        | var y =>
            rw [Term.eq_var_of_eqv equal]
            exact shorter y
        | atom a =>
            obtain ⟨b, rfl, _⟩ := Term.exists_atom_of_eqv equal
            exact equal
        | pair first second =>
            obtain ⟨first', second', rfl, _⟩ := Term.exists_pair_of_eqv equal
            exact equal

theorem Similar.walk {s s' : Substitution} (similar : s.Similar s')
    {term term' : Term} (equal : term.eqv term' = true) :
    (s.walk term).eqv (s'.walk term') = true := by
  cases term with
  | var x =>
      rw [Term.eq_var_of_eqv equal, Substitution.walk, Substitution.walk,
        similar.size_eq]
      exact similar.follow s'.size x
  | atom a =>
      obtain ⟨b, rfl, _⟩ := Term.exists_atom_of_eqv equal
      exact equal
  | pair first second =>
      obtain ⟨first', second', rfl, _⟩ := Term.exists_pair_of_eqv equal
      exact equal

theorem Similar.occursWithin {s s' : Substitution} (similar : s.Similar s')
    (x : Var) (limit : Nat) {term term' : Term}
    (equal : term.eqv term' = true) :
    s.occursWithin x limit term = s'.occursWithin x limit term' := by
  induction limit generalizing term term' with
  | zero =>
      rw [Substitution.occursWithin, Substitution.occursWithin,
        Term.anyVar_eq_any, Term.anyVar_eq_any, Term.vars_eq_of_eqv equal]
  | succ limit closer =>
      rw [Substitution.occursWithin, Substitution.occursWithin,
        Term.anyVar_eq_any, Term.anyVar_eq_any, Term.vars_eq_of_eqv equal]
      congr 1
      funext y
      have walked := similar.walk (Term.eqv_refl (.var y))
      cases found : s.walk (.var y) with
      | var z =>
          rw [found] at walked
          rw [Term.eq_var_of_eqv walked]
      | atom a =>
          rw [found] at walked
          obtain ⟨b, found', _⟩ := Term.exists_atom_of_eqv walked
          rw [found']
      | pair first second =>
          rw [found] at walked
          obtain ⟨first', second', found', _⟩ :=
            Term.exists_pair_of_eqv walked
          rw [found'] at walked ⊢
          exact closer walked

theorem Similar.extend {s s' t : Substitution} (similar : s.Similar s')
    {x : Var} {term term' : Term} (equal : term.eqv term' = true)
    (extended : s.extend x term = .ok t) :
    ∃ t', s'.extend x term' = .ok t' ∧ t.Similar t' := by
  obtain ⟨passed, rfl⟩ := (extend_eq_ok_iff _ _ _ _).1 extended
  refine ⟨s'.prepend ⟨x, term'⟩, (extend_eq_ok_iff _ _ _ _).2 ⟨?_, rfl⟩,
    similar.prepend x equal⟩
  rw [occurs, similar.size_eq, similar.occursWithin x _ equal] at passed
  exact passed

end Substitution

/-! ### Unification -/

theorem Equation.Similar.passedOn {equation equation' : Equation}
    (similar : equation.Similar equation') :
    equation.passedOn = equation'.passedOn := by
  rcases equation with ⟨left, right, allowance⟩
  rcases equation' with ⟨left', right', allowance'⟩
  rcases similar with ⟨equal, _, same⟩
  simp only at equal same
  subst same
  cases left with
  | var x =>
      rw [Term.eq_var_of_eqv equal]
      rfl
  | atom a =>
      obtain ⟨b, rfl, _⟩ := Term.exists_atom_of_eqv equal
      rfl
  | pair first second =>
      obtain ⟨first', second', rfl, _⟩ := Term.exists_pair_of_eqv equal
      rfl

namespace Substitution

/-- A binding that succeeds as a step succeeds as a similar step. -/
theorem Similar.extendStep {s s' t : Substitution} (similar : s.Similar s')
    {x : Var} {term term' : Term} (equal : term.eqv term' = true)
    {simpler : List Equation}
    (extended : (s.extend x term).map (([] : List Equation), ·) =
      .ok (simpler, t)) :
    ∃ simpler' t', (s'.extend x term').map (([] : List Equation), ·) =
        .ok (simpler', t') ∧
      List.Forall₂ Equation.Similar simpler simpler' ∧ t.Similar t' := by
  obtain ⟨rfl, extended, _⟩ := satisfies_of_extend extended
  obtain ⟨t', extended', similar'⟩ := similar.extend equal extended
  exact ⟨[], t', by rw [extended']; rfl, .nil, similar'⟩

/-- A step that succeeds succeeds on similar data with a similar outcome. -/
theorem Similar.reduce {s s' t : Substitution} (similar : s.Similar s')
    {equation equation' : Equation} (alike : equation.Similar equation')
    {simpler : List Equation}
    (reduced : s.reduce equation = .ok (simpler, t)) :
    ∃ simpler' t', s'.reduce equation' = .ok (simpler', t') ∧
      List.Forall₂ Equation.Similar simpler simpler' ∧ t.Similar t' := by
  have lefts := similar.walk alike.left
  have rights := similar.walk alike.right
  have step := s.reduction_reduce equation
  generalize s.reduce equation = outcome at reduced step
  cases step with
  | sameVar left right =>
      simp only [Except.ok.injEq, Prod.mk.injEq] at reduced
      rcases reduced with ⟨rfl, rfl⟩
      rw [left] at lefts
      rw [right] at rights
      exact ⟨[], s', reduce_eq_of_reduction
        (.sameVar (Term.eq_var_of_eqv lefts) (Term.eq_var_of_eqv rights)),
        .nil, similar⟩
  | @bindLeft x term left right different =>
      rw [left] at lefts
      rw [right] at rights
      have different' : s'.walk equation'.right ≠ .var x := by
        intro same
        rw [same] at rights
        exact different (Term.eq_var_of_eqv (Term.eqv_comm rights))
      rw [reduce_eq_of_reduction
        (.bindLeft (Term.eq_var_of_eqv lefts) rfl different')]
      exact similar.extendStep rights reduced
  | bindRight left right rigid =>
      rw [left] at lefts
      rw [right] at rights
      have rigid' : ∀ x, s'.walk equation'.left ≠ .var x := by
        intro x same
        rw [same] at lefts
        exact rigid x (Term.eq_var_of_eqv (Term.eqv_comm lefts))
      rw [reduce_eq_of_reduction
        (.bindRight rfl (Term.eq_var_of_eqv rights) rigid')]
      exact similar.extendStep lefts reduced
  | split left right passedOn =>
      simp only [Except.ok.injEq, Prod.mk.injEq] at reduced
      rcases reduced with ⟨rfl, rfl⟩
      rw [left] at lefts
      rw [right] at rights
      obtain ⟨a, b, left', onFirst, onSecond⟩ := Term.exists_pair_of_eqv lefts
      obtain ⟨c, d, right', onFirst', onSecond'⟩ :=
        Term.exists_pair_of_eqv rights
      rw [alike.passedOn] at passedOn
      exact ⟨_, s', reduce_eq_of_reduction (.split left' right' passedOn),
        .cons ⟨onFirst, onFirst', rfl⟩
          (.cons ⟨onSecond, onSecond', rfl⟩ .nil), similar⟩
  | exhausted left right passedOn => simp at reduced
  | sameAtom left right equal =>
      simp only [Except.ok.injEq, Prod.mk.injEq] at reduced
      rcases reduced with ⟨rfl, rfl⟩
      rw [left] at lefts
      rw [right] at rights
      obtain ⟨a, left', sameLeft⟩ := Term.exists_atom_of_eqv lefts
      obtain ⟨b, right', sameRight⟩ := Term.exists_atom_of_eqv rights
      have equal' : a.eqv b = true := by
        rw [Atom.eqv_symm] at sameLeft
        exact Atom.eqv_trans (Atom.eqv_trans sameLeft equal) sameRight
      exact ⟨[], s', reduce_eq_of_reduction (.sameAtom left' right' equal'),
        .nil, similar⟩
  | clash apart => simp at reduced

/-- A run that succeeds succeeds on similar data with a similar result. -/
theorem Similar.solve {s s' t : Substitution} (similar : s.Similar s')
    {stack stack' : List Equation}
    (alike : List.Forall₂ Equation.Similar stack stack')
    (solved : s.solve stack = .ok t) :
    ∃ t', s'.solve stack' = .ok t' ∧ t.Similar t' := by
  fun_induction Substitution.solve s stack generalizing s' stack' with
  | case1 s =>
      cases alike
      simp only [Except.ok.injEq] at solved
      subst solved
      exact ⟨s', by simp [Substitution.solve], similar⟩
  | case2 s equation rest failure reduced => simp at solved
  | case3 s equation rest simpler grown reduced onSimpler =>
      cases alike with
      | cons top below =>
          obtain ⟨simpler', grown', reduced', replaced, similar'⟩ :=
            similar.reduce top reduced
          obtain ⟨t', solved', result⟩ :=
            onSimpler similar' (List.rel_append replaced below) solved
          refine ⟨t', ?_, result⟩
          rw [Substitution.solve]
          split
          · rename_i failed
            simp [reduced'] at failed
          · rename_i found
            rw [reduced', Except.ok.injEq, Prod.mk.injEq] at found
            rcases found with ⟨rfl, rfl⟩
            exact solved'

/-- Terms that can be made equal can be made equal under a similar
substitution, with a similar result. -/
theorem Similar.unify {s s' t : Substitution} (similar : s.Similar s')
    {left right left' right' : Term} (lefts : left.eqv left' = true)
    (rights : right.eqv right' = true)
    (unified : s.unify left right = .ok t) :
    ∃ t', s'.unify left' right' = .ok t' ∧ t.Similar t' := by
  have alike : List.Forall₂ Equation.Similar
      [⟨left, right, Var.capacity⟩] [⟨left', right', Var.capacity⟩] :=
    .cons ⟨lefts, rights, rfl⟩ .nil
  exact similar.solve alike unified

end Substitution

end Relational
