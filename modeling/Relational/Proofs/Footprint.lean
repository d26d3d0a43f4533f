/-
Module: Relational.Proofs.Footprint
Purpose: Which variables unification binds, and when it binds none.
Main exports: Substitution.mem_vars_resolve_iff, Substitution.resolve_prepend,
  Substitution.unify_eq_self_iff, Substitution.unify_redundant,
  Substitution.Confined, Substitution.BoundAmong,
  Substitution.confined_of_reduce, Substitution.boundAmong_of_solve,
  Substitution.unify_footprint
-/
import Relational.Proofs.Canonical
import Relational.Proofs.Resolution

namespace Relational.Substitution

/-!
Two terms may lead to many variables through the bindings, and unification may
fetch any of the terms on the way.  What it can bind is known beforehand all the
same: it is among the variables that are left when both terms are resolved.  A
binding puts a resolved term in the place of its variable, so whatever the
equations that wait lead to afterwards was led to by the sides of one of them
before.

Where the resolved sides are equal already, none of these variables is bound.
A first binding would have to give a variable to itself, and that is what the
occurs check refuses.
-/

/-! ### The variables of resolved terms -/

/-- The occurs check looks for a variable of the resolved term. -/
theorem mem_vars_resolve_iff {s : Substitution} (acyclic : s.Acyclic)
    {term : Term} {x : Var} :
    x ∈ (s.resolve term).vars ↔ s.occurs x term = true := by
  induction term using acyclic.termInduction with
  | onUnbound y unbound =>
      rw [resolve_of_unbound unbound, occurs_of_unbound unbound, Term.vars,
        List.mem_singleton, decide_eq_true_eq, eq_comm]
  | onBound y next bound onNext =>
      rw [resolve_of_lookup acyclic bound, occurs_of_lookup acyclic bound,
        onNext]
  | onAtom a => simp [Term.vars]
  | onPair first second onFirst onSecond =>
      rw [resolve_pair, occurs_pair, Term.vars, List.mem_append, onFirst,
        onSecond, Bool.or_eq_true]

/-- There is nothing to be replaced in a term without bound variables. -/
theorem resolve_eq_self {s : Substitution} {term : Term}
    (unbound : ∀ x ∈ term.vars, s.lookup x = none) : s.resolve term = term := by
  induction term with
  | var x => exact resolve_of_unbound (unbound x (by simp [Term.vars]))
  | atom a => exact resolve_atom s a
  | pair first second onFirst onSecond =>
      rw [resolve_pair,
        onFirst fun x member => unbound x (by simp [Term.vars, member]),
        onSecond fun x member => unbound x (by simp [Term.vars, member])]

/-- A new binding replaces its variable in what has been resolved before. -/
theorem resolve_prepend {s : Substitution} (wellFormed : s.WellFormed) {x : Var}
    {term : Term} (unbound : s.lookup x = none)
    (apart : s.occurs x term = false) (other : Term) :
    (s.prepend ⟨x, term⟩).resolve other =
      (s.resolve other).subst fun y =>
        if x = y then s.resolve term else .var y := by
  have binds : s.Binds (s.prepend ⟨x, term⟩) :=
    ⟨x, term, unbound, (extend_eq_ok_iff _ _ _ _).2 ⟨apart, rfl⟩⟩
  have wellFormed' := wellFormed.of_binds binds
  have again := resolve_resolve_of_suffix wellFormed.acyclic wellFormed'
    binds.suffix
  have left : ∀ y, s.lookup y = none → x ≠ y →
      (s.prepend ⟨x, term⟩).lookup y = none := by
    intro y free different
    rw [lookup_prepend, if_neg different, free]
  rw [← again, ← subst_solution]
  apply Term.subst_congr
  intro y member
  have free := unbound_of_mem_resolve wellFormed.acyclic member
  by_cases same : x = y
  · subst same
    have bound : (s.prepend ⟨x, term⟩).lookup x = some term := by
      rw [lookup_prepend, if_pos rfl]
    rw [if_pos rfl, solution, resolve_of_lookup wellFormed'.acyclic bound,
      ← again]
    apply resolve_eq_self
    intro z among
    apply left z (unbound_of_mem_resolve wellFormed.acyclic among)
    rintro rfl
    rw [mem_vars_resolve_iff wellFormed.acyclic, apart] at among
    cases among
  · rw [if_neg same]
    exact resolve_of_unbound (left y free same)

/-! ### Nothing is bound where nothing has to be -/

theorem resolve_eqv_iff_solves {s : Substitution} {left right : Term} :
    (s.resolve left).eqv (s.resolve right) = true ↔
      s.solution.Solves left right := by
  rw [Valuation.Solves, subst_solution, subst_solution]

/-- The two sides of a binding that passes the occurs check are not equal
before it is made. -/
theorem not_satisfies_of_binds {s s' : Substitution} (acyclic : s.Acyclic)
    (binds : s.Binds s') : ¬ s.solution.Satisfies s' := by
  intro satisfies
  rcases binds with ⟨x, term, unbound, extended⟩
  obtain ⟨apart, rfl⟩ := (extend_eq_ok_iff _ _ _ _).1 extended
  have solves := (Valuation.satisfies_prepend_iff.1 satisfies).1
  rw [← resolve_eqv_iff_solves, resolve_of_unbound unbound] at solves
  have itself : x ∈ (s.resolve term).vars := by
    rw [Term.eq_var_of_eqv solves]
    exact List.mem_singleton_self x
  rw [mem_vars_resolve_iff acyclic, apart] at itself
  cases itself

/-- Unification changes nothing exactly where the resolved sides are equal. -/
theorem unify_eq_self_iff {s : Substitution} (wellFormed : s.WellFormed)
    {left right : Term} :
    s.unify left right = .ok s ↔
      (s.resolve left).eqv (s.resolve right) = true := by
  rw [resolve_eqv_iff_solves]
  constructor
  · intro unified
    have satisfied := (satisfies_of_solve unified s.solution).1
      wellFormed.satisfies_solution
    simpa using satisfied.2
  · intro solves
    cases outcome : s.unify left right with
    | error failure =>
        exact absurd solves (not_solves_of_unify_error wellFormed outcome
          wellFormed.satisfies_solution)
    | ok s' =>
        have satisfies : s.solution.Satisfies s' :=
          (satisfies_of_solve outcome s.solution).2
            ⟨wellFormed.satisfies_solution, by simpa using solves⟩
        -- The first binding, if there is one, is satisfied by what the
        -- variables stood for before it.
        have grows := grows_of_solve wellFormed.acyclic outcome
        rcases Relation.ReflTransGen.cases_head grows with
          rfl | ⟨_, binds, later⟩
        · rfl
        · exact absurd (satisfies_of_suffix (Grows.suffix later) satisfies)
            (not_satisfies_of_binds wellFormed.acyclic binds)

/-- Unification changes nothing exactly where the resolved sides are equal.  So
terms that have been unified once are unified again for nothing, then and
whenever other terms have been unified or other variables been bound in
between. -/
theorem unify_redundant {s : Substitution} (built : s.Built)
    (left right : Term) :
    (s.unify left right = .ok s ↔
      (s.resolve left).eqv (s.resolve right) = true) ∧
    ∀ s', s.unify left right = .ok s' → ∀ s'', s'.Reached s'' →
      s''.unify left right = .ok s'' := by
  refine ⟨unify_eq_self_iff built.wellFormed, ?_⟩
  intro s' unified s'' later
  have built' : s'.Built := .unify built unified
  have wellFormed'' := (built'.of_reached later).wellFormed
  rw [unify_eq_self_iff wellFormed'', resolve_eqv_iff_solves]
  have satisfied : s''.solution.Satisfies s' :=
    satisfies_of_suffix (later.suffix built'.wellFormed)
      wellFormed''.satisfies_solution
  simpa using ((satisfies_of_solve unified s''.solution).1 satisfied).2

/-- An atom that differs from itself by value is unified with the variable that
holds it for nothing, and so are, a second time, two terms that had to be
unified. -/
theorem unify_redundant_nan :
    ∃ (nan : Atom) (x y : Var) (s s' : Substitution),
      nan.value.eqv nan.value = false ∧ s.Built ∧
      s.lookup x = some (.atom nan) ∧
      s.unify (.var x) (.atom nan) = .ok s ∧
      s.unify (.pair (.var y) (.var x)) (.pair (.var x) (.var y)) = .ok s' ∧
      s' = s.prepend ⟨y, .atom nan⟩ ∧
      s'.unify (.pair (.var y) (.var x)) (.pair (.var x) (.var y)) =
        .ok s' := by
  let nan : Atom := ⟨.float .double 0x7ff8000000000000, .root 0⟩
  let x : Var := ⟨0, by decide⟩
  let y : Var := ⟨1, by decide⟩
  let s : Substitution := empty.prepend ⟨x, .atom nan⟩
  have built : s.Built :=
    .extend .empty rfl ((extend_eq_ok_iff _ _ _ _).2 ⟨by decide, rfl⟩)
  have unified :
      s.unify (.pair (.var y) (.var x)) (.pair (.var x) (.var y)) =
        .ok (s.prepend ⟨y, .atom nan⟩) := by
    cbv
  exact ⟨nan, x, y, s, _, by decide, built, by decide,
    (unify_redundant built _ _).1.2 (by decide), unified, rfl,
    (unify_redundant built _ _).2 _ unified _ .refl⟩

/-! ### Only variables of the resolved sides are bound -/

/-- All variables that the sides of the equations lead to are among the given
ones. -/
def Confined (s : Substitution) (among : Set Var) (stack : List Equation) :
    Prop :=
  ∀ e ∈ stack, (∀ x ∈ (s.resolve e.left).vars, x ∈ among) ∧
    ∀ x ∈ (s.resolve e.right).vars, x ∈ among

/-- Only variables among the given ones have been bound since. -/
def BoundAmong (s s' : Substitution) (among : Set Var) : Prop :=
  ∀ x, s.lookup x = none → s'.lookup x ≠ none → x ∈ among

/-- A binding of one of the variables to a term that leads to no others keeps
whatever waits among them. -/
theorem confined_of_extend {s s' : Substitution} (wellFormed : s.WellFormed)
    {among : Set Var} {x : Var} {term : Term} (unbound : s.lookup x = none)
    (extended : s.extend x term = .ok s') (member : x ∈ among)
    (inside : ∀ y ∈ (s.resolve term).vars, y ∈ among)
    {rest : List Equation} (confined : s.Confined among rest) :
    s'.Confined among rest ∧ s.BoundAmong s' among := by
  obtain ⟨apart, rfl⟩ := (extend_eq_ok_iff _ _ _ _).1 extended
  have kept : ∀ other : Term, (∀ y ∈ (s.resolve other).vars, y ∈ among) →
      ∀ y ∈ ((s.prepend ⟨x, term⟩).resolve other).vars, y ∈ among := by
    intro other before y found
    rw [resolve_prepend wellFormed unbound apart, Term.vars_subst,
      List.mem_flatMap] at found
    obtain ⟨z, among, found⟩ := found
    by_cases same : x = z
    · rw [if_pos same] at found
      exact inside y found
    · rw [if_neg same, Term.vars, List.mem_singleton] at found
      exact found ▸ before z among
  constructor
  · intro e waits
    exact ⟨kept e.left (confined e waits).1, kept e.right (confined e waits).2⟩
  · intro y free bound
    by_cases same : x = y
    · exact same ▸ member
    · rw [lookup_prepend, if_neg same] at bound
      exact absurd free bound

/-- A step binds one of the variables that the equations lead to, or none, and
the equations that are left lead to no others. -/
theorem confined_of_reduce {s s' : Substitution} (wellFormed : s.WellFormed)
    {among : Set Var} {equation : Equation} {simpler rest : List Equation}
    (reduced : s.reduce equation = .ok (simpler, s'))
    (confined : s.Confined among (equation :: rest)) :
    s'.Confined among (simpler ++ rest) ∧ s.BoundAmong s' among := by
  have acyclic := wellFormed.acyclic
  obtain ⟨⟨ofLeft, ofRight⟩, below⟩ := List.forall_mem_cons.1 confined
  rw [← resolve_walk acyclic] at ofLeft ofRight
  have same : s.BoundAmong s among := fun x free bound => absurd free bound
  have step := s.reduction_reduce equation
  generalize s.reduce equation = outcome at reduced step
  cases step with
  | sameVar left right =>
      cases reduced
      exact ⟨below, same⟩
  | bindLeft left right different =>
      obtain ⟨rfl, extended, _⟩ := satisfies_of_extend reduced
      have unbound := unbound_of_walk acyclic left
      rw [left, resolve_of_unbound unbound] at ofLeft
      rw [right] at ofRight
      exact confined_of_extend wellFormed unbound extended
        (ofLeft _ (List.mem_singleton_self _)) ofRight below
  | bindRight left right rigid =>
      obtain ⟨rfl, extended, _⟩ := satisfies_of_extend reduced
      have unbound := unbound_of_walk acyclic right
      rw [right, resolve_of_unbound unbound] at ofRight
      rw [left] at ofLeft
      exact confined_of_extend wellFormed unbound extended
        (ofRight _ (List.mem_singleton_self _)) ofLeft below
  | split left right passedOn =>
      cases reduced
      rw [left, resolve_pair, Term.vars, List.forall_mem_append] at ofLeft
      rw [right, resolve_pair, Term.vars, List.forall_mem_append] at ofRight
      exact ⟨List.forall_mem_cons.2 ⟨⟨ofLeft.1, ofRight.1⟩,
        List.forall_mem_cons.2 ⟨⟨ofLeft.2, ofRight.2⟩, below⟩⟩, same⟩
  | exhausted left right passedOn => cases reduced
  | sameAtom left right equal =>
      cases reduced
      exact ⟨below, same⟩
  | clash apart => cases reduced

/-- A run binds no variables but those that the equations lead to at its
start. -/
theorem boundAmong_of_solve {s s' : Substitution} (wellFormed : s.WellFormed)
    {among : Set Var} {stack : List Equation}
    (confined : s.Confined among stack) (solved : s.solve stack = .ok s') :
    s.BoundAmong s' among := by
  fun_induction solve s stack with
  | case1 s =>
      cases solved
      exact fun x free bound => absurd free bound
  | case2 s equation rest failure reduced => cases solved
  | case3 s equation rest simpler grown reduced onSimpler =>
      have grows := grows_of_reduce wellFormed.acyclic reduced
      obtain ⟨confined', now⟩ := confined_of_reduce wellFormed reduced confined
      have later := onSimpler (wellFormed.of_grows grows) confined' solved
      intro x free bound
      by_cases between : grown.lookup x = none
      · exact later x between bound
      · exact now x free between

/-- Unification puts new mappings in front of the ones that are there.  They
bind different variables, all of them unbound before and left over in one of the
resolved sides.  A term that leads to none of these variables stands for the
same as before. -/
theorem unify_footprint {s s' : Substitution} (built : s.Built)
    {left right : Term} (unified : s.unify left right = .ok s') :
    ∃ added : List Mapping, s'.mappings = added ++ s.mappings ∧
      (added.map Mapping.var).Nodup ∧
      (∀ mapping ∈ added, s.lookup mapping.var = none ∧
        (mapping.var ∈ (s.resolve left).vars ∨
          mapping.var ∈ (s.resolve right).vars)) ∧
      ∀ term : Term,
        (∀ x ∈ (s.resolve term).vars,
          x ∉ (s.resolve left).vars ∧ x ∉ (s.resolve right).vars) →
        s'.resolve term = s.resolve term := by
  have wellFormed := built.wellFormed
  have wellFormed' := (Built.unify built unified).wellFormed
  have suffix := (grows_of_solve wellFormed.acyclic unified).suffix
  have boundAmong : s.BoundAmong s'
      {x | x ∈ (s.resolve left).vars ∨ x ∈ (s.resolve right).vars} :=
    boundAmong_of_solve wellFormed
      (List.forall_mem_singleton.2 ⟨fun _ => Or.inl, fun _ => Or.inr⟩) unified
  obtain ⟨added, mappings⟩ := suffix
  have functional := wellFormed'.functional
  rw [← mappings, List.map_append, List.nodup_append] at functional
  obtain ⟨distinct, _, apart⟩ := functional
  refine ⟨added, mappings.symm, distinct, ?_, ?_⟩
  · intro mapping member
    have listed := List.mem_map_of_mem (f := Mapping.var) member
    have free : s.lookup mapping.var = none :=
      lookup_eq_none_iff.2 fun old => apart _ listed _ old rfl
    have bound : s'.lookup mapping.var ≠ none := by
      rw [Ne, lookup_eq_none_iff, ← mappings, List.map_append,
        List.mem_append, not_not]
      exact Or.inl listed
    exact ⟨free, boundAmong mapping.var free bound⟩
  · intro term outside
    rw [← resolve_resolve_of_suffix wellFormed.acyclic wellFormed'
      ⟨added, mappings⟩]
    apply resolve_eq_self
    intro x member
    by_contra bound
    have free := unbound_of_mem_resolve wellFormed.acyclic member
    obtain ⟨notLeft, notRight⟩ := outside x member
    exact (boundAmong x free bound).elim notLeft notRight

/-- Behind a variable that is bound to a list, the variable of the list is
bound, and a third variable stands for itself as before. -/
theorem unify_footprint_list :
    ∃ (x y z : Var) (a : Atom) (s s' : Substitution), s.Built ∧
      s.lookup x = some (.pair (.var y) .nil) ∧
      s.unify (.var x) (.pair (.atom a) .nil) = .ok s' ∧
      s'.mappings = [⟨y, .atom a⟩] ++ s.mappings ∧
      y ∈ (s.resolve (.var x)).vars ∧
      s'.resolve (.pair (.var z) .nil) = s.resolve (.pair (.var z) .nil) := by
  let x : Var := ⟨0, by decide⟩
  let y : Var := ⟨1, by decide⟩
  let z : Var := ⟨2, by decide⟩
  let a : Atom := ⟨.bool true, .root 0⟩
  let s : Substitution := empty.prepend ⟨x, .pair (.var y) .nil⟩
  have built : s.Built :=
    .extend .empty rfl ((extend_eq_ok_iff _ _ _ _).2 ⟨by decide, rfl⟩)
  have unified : s.unify (.var x) (.pair (.atom a) .nil) =
      .ok (s.prepend ⟨y, .atom a⟩) := by
    cbv
  obtain ⟨_, _, _, _, frame⟩ := unify_footprint built unified
  exact ⟨x, y, z, a, s, _, built, by decide, unified, rfl, by decide,
    frame _ (by decide)⟩

end Relational.Substitution
