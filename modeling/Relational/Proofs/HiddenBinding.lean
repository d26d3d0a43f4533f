/-
Module: Relational.Proofs.HiddenBinding
Purpose: A binding of a variable that nothing else mentions has no effect on
  unification, and so none on a search.
Main exports: Substitution.behind, Substitution.Apart, Substitution.walk_behind,
  Substitution.unify_behind, Expr.avoids, Correspondence.hidden
-/
import Relational.Proofs.Correspondence
import Relational.Proofs.Renaming
import Relational.Proofs.Unification

namespace Relational

/-!
Suppose that one variable is bound from the beginning, and that neither the
terms that are unified nor the other bindings mention it.  Then no chain of
bindings leads to it, so walking never looks at its binding, the occurs check
never finds it, and every equation is answered as if the binding were not there.
The new bindings come in front of the hidden one, which stays the oldest.
-/

/-- Neither side of the equation mentions the variable. -/
def Equation.Avoids (q : Var) (equation : Equation) : Prop :=
  q ∉ equation.left.vars ∧ q ∉ equation.right.vars

namespace Substitution

/-- A run takes the topmost equation first. -/
theorem solve_cons (s : Substitution) (equation : Equation)
    (rest : List Equation) :
    s.solve (equation :: rest) = (s.reduce equation).bind
      fun (simpler, grown) => grown.solve (simpler ++ rest) := by
  rw [solve]
  split
  · rename_i failed
    rw [failed]
    rfl
  · rename_i reduced
    rw [reduced]
    rfl

/-- The substitution with one more mapping behind all others. -/
def behind (s : Substitution) (hidden : Mapping) : Substitution :=
  ⟨s.mappings ++ [hidden], s.size + 1, by simp [s.size_eq]⟩

theorem lookup_behind (s : Substitution) (hidden : Mapping) (x : Var) :
    (s.behind hidden).lookup x =
      (s.lookup x).or (if hidden.var = x then some hidden.term else none) := by
  have search : ∀ mappings : List Mapping,
      lookup.go x (mappings ++ [hidden]) = (lookup.go x mappings).or
        (if hidden.var = x then some hidden.term else none) := by
    intro mappings
    induction mappings with
    | nil => rfl
    | cons mapping older onOlder =>
        rw [List.cons_append, lookup.go, lookup.go, onOlder]
        split
        · rfl
        · rfl
  exact search s.mappings

/-- The variable is unbound and no binding mentions it. -/
structure Apart (s : Substitution) (q : Var) : Prop where
  acyclic : s.Acyclic
  unbound : s.lookup q = none
  unreferred : ∀ x, ¬ s.Refers x q

theorem apart_empty (q : Var) : empty.Apart q where
  acyclic := wellFormed_empty.acyclic
  unbound := rfl
  unreferred _ := not_refers_of_unbound rfl

namespace Apart

variable {s : Substitution} {q : Var} {hidden : Term}

theorem not_mem_of_lookup (apart : s.Apart q) {x : Var} {term : Term}
    (bound : s.lookup x = some term) : q ∉ term.vars :=
  fun member => apart.unreferred x ⟨term, bound, member⟩

theorem lookup_behind_self (apart : s.Apart q) (hidden : Term) :
    (s.behind ⟨q, hidden⟩).lookup q = some hidden := by
  rw [lookup_behind, apart.unbound, if_pos rfl]
  rfl

theorem lookup_behind_of_ne {x : Var} (different : x ≠ q) :
    (s.behind ⟨q, hidden⟩).lookup x = s.lookup x := by
  rw [lookup_behind, if_neg (Ne.symm different), Option.or_none]

/-- No chain of bindings leads to the hidden binding. -/
theorem acyclic_behind (apart : s.Apart q) (free : q ∉ hidden.vars) :
    (s.behind ⟨q, hidden⟩).Acyclic := by
  -- A step leads to another variable, and only the first one can start from
  -- the hidden one.
  have step : ∀ {x y}, (s.behind ⟨q, hidden⟩).Refers x y →
      y ≠ q ∧ (x ≠ q → s.Refers x y) := by
    rintro x y ⟨term, bound, member⟩
    by_cases same : x = q
    · subst same
      rw [apart.lookup_behind_self, Option.some.injEq] at bound
      subst bound
      refine ⟨?_, fun different => absurd rfl different⟩
      rintro rfl
      exact free member
    · rw [lookup_behind_of_ne same] at bound
      refine ⟨?_, fun _ => ⟨term, bound, member⟩⟩
      rintro rfl
      exact apart.not_mem_of_lookup bound member
  have path : ∀ {x y}, Relation.TransGen (s.behind ⟨q, hidden⟩).Refers x y →
      y ≠ q ∧ (x ≠ q → Relation.TransGen s.Refers x y) := by
    intro x y along
    induction along with
    | single first =>
        exact ⟨(step first).1,
          fun different => .single ((step first).2 different)⟩
    | tail _ last before =>
        exact ⟨(step last).1, fun different =>
          .tail (before.2 different) ((step last).2 before.1)⟩
  intro x cycle
  obtain ⟨different, inside⟩ := path cycle
  exact apart.acyclic x (inside different)

/-- Induction along the bindings on the terms that do not mention the variable.
They are looked up with and without the hidden binding alike. -/
@[elab_as_elim]
theorem termInduction (apart : s.Apart q) (hidden : Term)
    {motive : (term : Term) → q ∉ term.vars → Prop}
    (onUnbound : ∀ x avoids, s.lookup x = none →
      (s.behind ⟨q, hidden⟩).lookup x = none → motive (.var x) avoids)
    (onBound : ∀ x avoids next inner, s.lookup x = some next →
      (s.behind ⟨q, hidden⟩).lookup x = some next → motive next inner →
        motive (.var x) avoids)
    (onAtom : ∀ a avoids, motive (.atom a) avoids)
    (onPair : ∀ first second avoids inFirst inSecond, motive first inFirst →
      motive second inSecond → motive (.pair first second) avoids)
    (term : Term) (avoids : q ∉ term.vars) : motive term avoids := by
  have different : ∀ {x : Var}, q ∉ (Term.var x).vars → x ≠ q := by
    rintro x avoids rfl
    exact avoids (List.mem_singleton_self x)
  induction term using apart.acyclic.termInduction with
  | onUnbound x unbound =>
      exact onUnbound x avoids unbound
        ((lookup_behind_of_ne (different avoids)).trans unbound)
  | onBound x next bound onNext =>
      exact onBound x avoids next (apart.not_mem_of_lookup bound) bound
        ((lookup_behind_of_ne (different avoids)).trans bound) (onNext _)
  | onAtom a => exact onAtom a avoids
  | onPair first second onFirst onSecond =>
      have apartBoth : q ∉ first.vars ∧ q ∉ second.vars := by
        simpa [Term.vars] using avoids
      exact onPair first second avoids apartBoth.1 apartBoth.2
        (onFirst apartBoth.1) (onSecond apartBoth.2)

theorem walk_behind (apart : s.Apart q) (free : q ∉ hidden.vars) {term : Term}
    (avoids : q ∉ term.vars) :
    (s.behind ⟨q, hidden⟩).walk term = s.walk term := by
  induction term, avoids using apart.termInduction hidden with
  | onUnbound x _ unbound unbound' =>
      rw [walk_of_unbound unbound, walk_of_unbound unbound']
  | onBound x _ next _ bound bound' onNext =>
      rw [walk_of_lookup apart.acyclic bound,
        walk_of_lookup (apart.acyclic_behind free) bound', onNext]
  | onAtom a => rfl
  | onPair first second => rfl

theorem not_mem_walk (apart : s.Apart q) {term : Term}
    (avoids : q ∉ term.vars) : q ∉ (s.walk term).vars := by
  induction term, avoids using apart.termInduction .nil with
  | onUnbound x avoids unbound _ =>
      rw [walk_of_unbound unbound]
      exact avoids
  | onBound x _ next _ bound _ onNext =>
      rw [walk_of_lookup apart.acyclic bound]
      exact onNext
  | onAtom a avoids => exact avoids
  | onPair first second avoids => exact avoids

theorem occurs_behind (apart : s.Apart q) (free : q ∉ hidden.vars) (x : Var)
    {term : Term} (avoids : q ∉ term.vars) :
    (s.behind ⟨q, hidden⟩).occurs x term = s.occurs x term := by
  induction term, avoids using apart.termInduction hidden with
  | onUnbound y _ unbound unbound' =>
      rw [occurs_of_unbound unbound, occurs_of_unbound unbound']
  | onBound y _ next _ bound bound' onNext =>
      rw [occurs_of_lookup apart.acyclic bound,
        occurs_of_lookup (apart.acyclic_behind free) bound', onNext]
  | onAtom a => rw [occurs_atom, occurs_atom]
  | onPair first second _ _ _ onFirst onSecond =>
      rw [occurs_pair, occurs_pair, onFirst, onSecond]

theorem resolve_behind (apart : s.Apart q) (free : q ∉ hidden.vars)
    {term : Term} (avoids : q ∉ term.vars) :
    (s.behind ⟨q, hidden⟩).resolve term = s.resolve term := by
  induction term, avoids using apart.termInduction hidden with
  | onUnbound y _ unbound unbound' =>
      rw [resolve_of_unbound unbound, resolve_of_unbound unbound']
  | onBound y _ next _ bound bound' onNext =>
      rw [resolve_of_lookup apart.acyclic bound,
        resolve_of_lookup (apart.acyclic_behind free) bound', onNext]
  | onAtom a => rw [resolve_atom, resolve_atom]
  | onPair first second _ _ _ onFirst onSecond =>
      rw [resolve_pair, resolve_pair, onFirst, onSecond]

/-- The hidden variable stands for what its term stands for without it. -/
theorem reify_behind (apart : s.Apart q) (free : q ∉ hidden.vars) :
    (s.behind ⟨q, hidden⟩).reify (.var q) = s.reify hidden := by
  have resolved : (s.behind ⟨q, hidden⟩).resolve (.var q) =
      s.resolve hidden := by
    rw [resolve_of_lookup (apart.acyclic_behind free)
      (apart.lookup_behind_self hidden), apart.resolve_behind free free]
  rw [reify, reify, resolved]

/-! ### Unification -/

theorem extend_behind (apart : s.Apart q) (free : q ∉ hidden.vars) (x : Var)
    {term : Term} (avoids : q ∉ term.vars) :
    (s.behind ⟨q, hidden⟩).extend x term =
      (s.extend x term).map (·.behind ⟨q, hidden⟩) := by
  rw [extend, extend, apart.occurs_behind free x avoids]
  split
  · rfl
  · rfl

/-- A step is made with the hidden binding as it is made without it. -/
theorem reduce_behind (apart : s.Apart q) (free : q ∉ hidden.vars)
    {equation : Equation} (avoids : equation.Avoids q) :
    (s.behind ⟨q, hidden⟩).reduce equation =
      (s.reduce equation).map (Prod.map id (·.behind ⟨q, hidden⟩)) := by
  have lefts := apart.walk_behind free avoids.1
  have rights := apart.walk_behind free avoids.2
  have avoidsLeft := apart.not_mem_walk avoids.1
  have avoidsRight := apart.not_mem_walk avoids.2
  have extended : ∀ (x : Var) {term : Term}, q ∉ term.vars →
      ((s.behind ⟨q, hidden⟩).extend x term).map (([] : List Equation), ·) =
        ((s.extend x term).map (([] : List Equation), ·)).map
          (Prod.map id (·.behind ⟨q, hidden⟩)) := by
    intro x term avoids
    rw [apart.extend_behind free x avoids]
    cases s.extend x term with
    | error failure => rfl
    | ok s' => rfl
  have step := s.reduction_reduce equation
  generalize s.reduce equation = outcome at step
  cases step with
  | sameVar left right =>
      exact reduce_eq_of_reduction
        (.sameVar (lefts.trans left) (rights.trans right))
  | bindLeft left right different =>
      rw [right] at avoidsRight
      rw [← extended _ avoidsRight]
      exact reduce_eq_of_reduction
        (.bindLeft (lefts.trans left) (rights.trans right) different)
  | bindRight left right rigid =>
      rw [left] at avoidsLeft
      rw [← extended _ avoidsLeft]
      exact reduce_eq_of_reduction
        (.bindRight (lefts.trans left) (rights.trans right) rigid)
  | split left right passedOn =>
      exact reduce_eq_of_reduction
        (.split (lefts.trans left) (rights.trans right) passedOn)
  | exhausted left right passedOn =>
      exact reduce_eq_of_reduction
        (.exhausted (lefts.trans left) (rights.trans right) passedOn)
  | sameAtom left right equal =>
      exact reduce_eq_of_reduction
        (.sameAtom (lefts.trans left) (rights.trans right) equal)
  | clash clashing =>
      rw [← lefts, ← rights] at clashing ⊢
      exact reduce_eq_of_reduction (.clash clashing)

theorem of_extend (apart : s.Apart q) {s' : Substitution} {x : Var}
    {term : Term} (grows : s.Grows s') (extended : s.extend x term = .ok s')
    (different : x ≠ q) (avoids : q ∉ term.vars) : s'.Apart q := by
  obtain ⟨_, rfl⟩ := (extend_eq_ok_iff _ _ _ _).1 extended
  refine ⟨apart.acyclic.of_grows grows, ?_, ?_⟩
  · rw [lookup_prepend, if_neg different, apart.unbound]
  · rintro y ⟨found, bound, member⟩
    rw [lookup_prepend] at bound
    split at bound
    · obtain rfl := Option.some.inj bound
      exact avoids member
    · exact apart.not_mem_of_lookup bound member

/-- A step that mentions the variable nowhere binds it to nothing and binds
nothing to it. -/
theorem of_reduce (apart : s.Apart q) {s' : Substitution} {equation : Equation}
    {simpler : List Equation} (avoids : equation.Avoids q)
    (reduced : s.reduce equation = .ok (simpler, s')) :
    s'.Apart q ∧ ∀ e ∈ simpler, e.Avoids q := by
  have grows := grows_of_reduce apart.acyclic reduced
  have avoidsLeft := apart.not_mem_walk avoids.1
  have avoidsRight := apart.not_mem_walk avoids.2
  have different : ∀ {x : Var}, q ∉ (Term.var x).vars → x ≠ q := by
    rintro x avoids rfl
    exact avoids (List.mem_singleton_self x)
  have step := s.reduction_reduce equation
  generalize s.reduce equation = outcome at reduced step
  cases step with
  | sameVar left right =>
      cases reduced
      exact ⟨apart, List.forall_mem_nil _⟩
  | bindLeft left right _ =>
      rw [left] at avoidsLeft
      rw [right] at avoidsRight
      obtain ⟨rfl, extended, _⟩ := satisfies_of_extend reduced
      exact ⟨apart.of_extend grows extended (different avoidsLeft) avoidsRight,
        List.forall_mem_nil _⟩
  | bindRight left right _ =>
      rw [left] at avoidsLeft
      rw [right] at avoidsRight
      obtain ⟨rfl, extended, _⟩ := satisfies_of_extend reduced
      exact ⟨apart.of_extend grows extended (different avoidsRight) avoidsLeft,
        List.forall_mem_nil _⟩
  | split left right passedOn =>
      cases reduced
      rw [left, Term.vars, List.mem_append, not_or] at avoidsLeft
      rw [right, Term.vars, List.mem_append, not_or] at avoidsRight
      refine ⟨apart, List.forall_mem_cons.2
        ⟨⟨avoidsLeft.1, avoidsRight.1⟩, List.forall_mem_singleton.2
          ⟨avoidsLeft.2, avoidsRight.2⟩⟩⟩
  | exhausted left right passedOn => cases reduced
  | sameAtom left right equal =>
      cases reduced
      exact ⟨apart, List.forall_mem_nil _⟩
  | clash clashing => cases reduced

/-- A run is made with the hidden binding as it is made without it. -/
theorem solve_behind (apart : s.Apart q) (free : q ∉ hidden.vars)
    {stack : List Equation} (avoids : ∀ e ∈ stack, e.Avoids q) :
    (s.behind ⟨q, hidden⟩).solve stack =
        (s.solve stack).map (·.behind ⟨q, hidden⟩) ∧
      ∀ {t}, s.solve stack = .ok t → t.Apart q := by
  fun_induction solve s stack with
  | case1 s =>
      rw [solve]
      refine ⟨rfl, fun solved => ?_⟩
      cases solved
      exact apart
  | case2 s equation rest failure reduced =>
      have step := apart.reduce_behind free (List.forall_mem_cons.1 avoids).1
      rw [reduced] at step
      constructor
      · rw [solve_cons, step]
        rfl
      · intro t solved
        cases solved
  | case3 s equation rest simpler grown reduced onSimpler =>
      obtain ⟨top, below⟩ := List.forall_mem_cons.1 avoids
      have step := apart.reduce_behind free top
      rw [reduced] at step
      obtain ⟨apart', replaced⟩ := apart.of_reduce top reduced
      obtain ⟨same, solved⟩ := onSimpler apart'
        (List.forall_mem_append.2 ⟨replaced, below⟩)
      refine ⟨?_, solved⟩
      rw [solve_cons, step]
      exact same

/-- Terms that do not mention the variable are unified with the hidden binding
as they are unified without it. -/
theorem unify_behind (apart : s.Apart q) (free : q ∉ hidden.vars)
    {left right : Term} (avoidsLeft : q ∉ left.vars)
    (avoidsRight : q ∉ right.vars) :
    (s.behind ⟨q, hidden⟩).unify left right =
        (s.unify left right).map (·.behind ⟨q, hidden⟩) ∧
      ∀ {t}, s.unify left right = .ok t → t.Apart q :=
  apart.solve_behind free
    (List.forall_mem_singleton.2 ⟨avoidsLeft, avoidsRight⟩)

end Apart

end Substitution

/-! ### Building terms without the variable -/

/-- The expression does not mention the variable. -/
def Expr.avoids (q : Var) : Expr → Bool
  | .value _ => true
  | .var x => decide (x ≠ q)
  | .name _ => true
  | .pair first second => first.avoids q && second.avoids q
  | .term t => decide (q ∉ t.vars)
  | .copies _ item => item.avoids q
  | .nested _ item => item.avoids q

/-- No term of the scope mentions the variable. -/
def Scope.avoids (q : Var) (scope : Scope) : Bool :=
  scope.all fun entry => decide (q ∉ entry.2.vars)

theorem Scope.find_avoids {q : Var} {scope : Scope}
    (avoids : scope.avoids q = true) (name : String) :
    q ∉ (scope.find name).vars := by
  induction scope with
  | nil => simp [find, Term.nil, Term.vars]
  | cons entry older onOlder =>
      rcases entry with ⟨key, term⟩
      simp only [Scope.avoids, List.all_cons, Bool.and_eq_true,
        decide_eq_true_eq] at avoids
      by_cases same : name = key
      · subst same
        simpa [find] using avoids.1
      · have different : (name == key) = false := by simpa using same
        simpa [find, List.lookup_cons, different] using onOlder avoids.2

namespace Expr

theorem tabulate_avoids {q : Var} {item : Nat → Term}
    (items : ∀ index, q ∉ (item index).vars) (count : Nat) {tail : Term}
    (avoids : q ∉ tail.vars) : q ∉ (tabulate item count tail).vars := by
  induction count generalizing tail with
  | zero => exact avoids
  | succ count shorter =>
      apply shorter
      simp [Term.vars, items count, avoids]

theorem wrap_avoids {q : Var} (depth : Nat) {term : Term}
    (avoids : q ∉ term.vars) : q ∉ (wrap depth term).vars := by
  induction depth generalizing term with
  | zero => exact avoids
  | succ depth shallower =>
      apply shallower
      simp [Term.vars, Term.nil, avoids]

theorem build_avoids {q : Var} {expr : Expr} (avoids : expr.avoids q = true)
    {scope : Scope} (scopeAvoids : scope.avoids q = true) (place : Place) :
    q ∉ (expr.build scope place).vars := by
  induction expr generalizing place with
  | value v => simp [build, Term.vars]
  | var x =>
      have different : x ≠ q := of_decide_eq_true avoids
      rw [build, Term.vars, List.mem_singleton]
      exact different.symm
  | name n => exact Scope.find_avoids scopeAvoids n
  | pair first second onFirst onSecond =>
      simp only [Expr.avoids, Bool.and_eq_true] at avoids
      simp [build, Term.vars, onFirst avoids.1, onSecond avoids.2]
  | term t => exact of_decide_eq_true avoids
  | copies count item onItem =>
      exact tabulate_avoids (fun _ => onItem avoids _) count
        (by simp [Term.nil, Term.vars])
  | nested depth item onItem => exact wrap_avoids depth (onItem avoids _)

end Expr

/-- A search in which one variable is bound from the beginning corresponds to
the search without the binding, as long as nothing else mentions the
variable. -/
def Correspondence.hidden (q : Var) (list : Term) (free : q ∉ list.vars) :
    Correspondence where
  admits expr := expr.isPlain && expr.avoids q
  terms term term' := term.eqv term' = true ∧ q ∉ term.vars
  substitutions s s' := ∃ visible : Substitution, visible.Similar s' ∧
    visible.Apart q ∧ s = visible.behind ⟨q, list⟩
  start := q.id + 1
  terms_var := by
    intro x later
    refine ⟨Term.eqv_refl _, ?_⟩
    rw [Term.vars, List.mem_singleton]
    rintro rfl
    exact absurd later (Nat.not_succ_le_self _)
  terms_build := by
    intro expr admitted scope scope' scopes place place'
    rw [Bool.and_eq_true] at admitted
    have similar : scope.Similar scope' :=
      scopes.imp fun _ _ entries => ⟨entries.1, entries.2.1⟩
    have avoids : scope.avoids q = true := by
      have apart : (∀ entry ∈ scope, q ∉ entry.2.vars) ∧
          List.Forall₂ (fun entry entry' => entry.1 = entry'.1) scope scope' :=
        (List.forall₂_and_left _ _).1
          (scopes.imp fun _ _ entries => ⟨entries.2.2, entries.1⟩)
      rw [Scope.avoids, List.all_eq_true]
      exact fun entry member => decide_eq_true (apart.1 entry member)
    exact ⟨Expr.build_similar admitted.1 similar place place',
      Expr.build_avoids admitted.2 avoids place⟩
  unify := by
    rintro s s' left left' right right' ⟨visible, similar, apart, rfl⟩ lefts
      rights t unified
    obtain ⟨same, kept⟩ := apart.unify_behind free lefts.2 rights.2
    rw [same] at unified
    cases found : visible.unify left right with
    | error failure =>
        rw [found] at unified
        cases unified
    | ok grown =>
        rw [found] at unified
        cases unified
        obtain ⟨t', unified', similar'⟩ :=
          similar.unify lefts.1 rights.1 found
        exact ⟨t', unified', grown, similar', kept found, rfl⟩
  unify_back := by
    rintro s s' left left' right right' ⟨visible, similar, apart, rfl⟩ lefts
      rights t' unified'
    obtain ⟨grown, found, _⟩ := similar.symm.unify (Term.eqv_comm lefts.1)
      (Term.eqv_comm rights.1) unified'
    refine ⟨grown.behind ⟨q, list⟩, ?_⟩
    rw [(apart.unify_behind free lefts.2 rights.2).1, found]
    rfl

end Relational
