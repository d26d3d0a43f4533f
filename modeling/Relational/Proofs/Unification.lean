/-
Module: Relational.Proofs.Unification
Purpose: Unification finds a most general solution, and fails only where there
  is none.
Main exports: Substitution.Grows, Substitution.acyclic_prepend_iff,
  Substitution.Built, Substitution.Built.wellFormed,
  Substitution.grows_of_solve, Substitution.unsolvable_of_solve
-/
import Relational.Proofs.Bindings

namespace Relational

open Relation

/-!
A run of unification is a sequence of bindings of unbound variables, each of
which has passed the occurs check.  So every substitution that is built from
the empty one is well-formed, and has a solution.

In the other direction, a run that fails has met an equation that no valuation
solves: two terms that clash, or a variable that would have to be a proper part
of itself.  The allowance of an equation is not used up, because the variables
that were crossed on the way to its left side are all different.
-/

namespace Substitution

/-! ### Growth by bindings of unbound variables -/

/-- One unbound variable has been bound. -/
def Binds (s s' : Substitution) : Prop :=
  ∃ x term, s.lookup x = none ∧ s.extend x term = .ok s'

/-- Unbound variables have been bound one after the other. -/
def Grows : Substitution → Substitution → Prop := ReflTransGen Binds

/-! A new binding takes the place of an older one of its variable.  So the paths
that are there afterwards cross the new binding, and older ones of the other
variables only. -/

/-- The variable `y` refers to `z`, and it is not `x`. -/
def RefersPast (s : Substitution) (x y z : Var) : Prop :=
  y ≠ x ∧ s.Refers y z

/-- Some variable of the term is `x`, or leads to it without crossing a binding
of `x` itself. -/
def Returns (s : Substitution) (term : Term) (x : Var) : Prop :=
  ∃ y ∈ term.vars, ReflTransGen (s.RefersPast x) y x

theorem Returns.reaches {s : Substitution} {term : Term} {x : Var}
    (returns : s.Returns term x) : s.Reaches term x := by
  rcases returns with ⟨y, member, path⟩
  exact ⟨y, member, ReflTransGen.mono (fun _ _ refers => refers.2) _ _ path⟩

theorem refersPast_of_unbound {s : Substitution} {x y z : Var}
    (unbound : s.lookup x = none) (refers : s.Refers y z) :
    s.RefersPast x y z := by
  refine ⟨?_, refers⟩
  rintro rfl
  exact not_refers_of_unbound unbound refers

/-- A path to an unbound variable crosses no binding of it. -/
theorem Reaches.returns {s : Substitution} {term : Term} {x : Var}
    (unbound : s.lookup x = none) (reaches : s.Reaches term x) :
    s.Returns term x := by
  rcases reaches with ⟨y, member, path⟩
  exact ⟨y, member,
    ReflTransGen.mono (fun _ _ => refersPast_of_unbound unbound) _ _ path⟩

theorem refers_prepend_iff {s : Substitution} {x : Var} {term : Term}
    {y z : Var} :
    (s.prepend ⟨x, term⟩).Refers y z ↔
      (y = x ∧ z ∈ term.vars) ∨ s.RefersPast x y z := by
  constructor
  · intro refers
    rcases refers with ⟨found, bound, member⟩
    rw [lookup_prepend] at bound
    by_cases same : x = y
    · rw [if_pos same, Option.some.injEq] at bound
      subst bound
      exact Or.inl ⟨same.symm, member⟩
    · rw [if_neg same] at bound
      exact Or.inr ⟨Ne.symm same, found, bound, member⟩
  · intro refers
    rcases refers with ⟨rfl, member⟩ | ⟨different, found, bound, member⟩
    · exact ⟨term, by simp [lookup_prepend], member⟩
    · exact ⟨found, by simp [lookup_prepend, different.symm, bound], member⟩

/-- A path through a new binding leads to its variable and on from a variable
of its term.  It crosses the new binding once, as the term does not lead back
to the variable. -/
theorem transGen_prepend {s : Substitution} {x : Var} {term : Term}
    (apart : ¬ s.Returns term x) {y z : Var}
    (path : TransGen (s.prepend ⟨x, term⟩).Refers y z) :
    TransGen (s.RefersPast x) y z ∨
      ReflTransGen (s.RefersPast x) y x ∧
        ∃ w ∈ term.vars, ReflTransGen (s.RefersPast x) w z := by
  induction path with
  | single refers =>
      rcases refers_prepend_iff.1 refers with ⟨rfl, member⟩ | old
      · exact Or.inr ⟨.refl, _, member, .refl⟩
      · exact Or.inl (.single old)
  | tail _ refers before =>
      rcases refers_prepend_iff.1 refers with ⟨rfl, member⟩ | old
      · rcases before with before | ⟨_, returns⟩
        · exact Or.inr ⟨before.to_reflTransGen, _, member, .refl⟩
        · exact absurd returns apart
      · rcases before with before | ⟨toVar, w, member, further⟩
        · exact Or.inl (before.tail old)
        · exact Or.inr ⟨toVar, w, member, further.tail old⟩

/-- A new binding closes a cycle exactly where its term leads back to its
variable without the help of the binding that it replaces. -/
theorem acyclic_prepend_iff {s : Substitution} (acyclic : s.Acyclic) {x : Var}
    {term : Term} :
    (s.prepend ⟨x, term⟩).Acyclic ↔ ¬ s.Returns term x := by
  constructor
  · rintro acyclic' ⟨y, member, path⟩
    have crossed : (s.prepend ⟨x, term⟩).Refers x y :=
      refers_prepend_iff.2 (Or.inl ⟨rfl, member⟩)
    have back : ReflTransGen (s.prepend ⟨x, term⟩).Refers y x :=
      ReflTransGen.mono (fun _ _ old => refers_prepend_iff.2 (Or.inr old))
        _ _ path
    exact acyclic' x (.head' crossed back)
  · intro apart y cycle
    rcases transGen_prepend apart cycle with old | ⟨toVar, z, member, further⟩
    · exact acyclic y (TransGen.mono (fun _ _ refers => refers.2) _ _ old)
    · exact apart ⟨z, member, further.trans toVar⟩

theorem Acyclic.of_binds {s s' : Substitution} (acyclic : s.Acyclic)
    (binds : s.Binds s') : s'.Acyclic := by
  rcases binds with ⟨x, term, unbound, extended⟩
  obtain ⟨passed, rfl⟩ := (extend_eq_ok_iff _ _ _ _).1 extended
  rw [acyclic_prepend_iff acyclic]
  intro returns
  have caught := (occurs_iff acyclic).2 ⟨unbound, returns.reaches⟩
  simp [caught] at passed

theorem WellFormed.of_binds {s s' : Substitution} (wellFormed : s.WellFormed)
    (binds : s.Binds s') : s'.WellFormed := by
  refine ⟨?_, wellFormed.acyclic.of_binds binds⟩
  rcases binds with ⟨x, term, unbound, extended⟩
  obtain ⟨_, rfl⟩ := (extend_eq_ok_iff _ _ _ _).1 extended
  rw [mappings_prepend, List.map_cons, List.nodup_cons]
  exact ⟨lookup_eq_none_iff.1 unbound, wellFormed.functional⟩

theorem Binds.refers {s s' : Substitution} (binds : s.Binds s') {x y : Var}
    (refers : s.Refers x y) : s'.Refers x y := by
  rcases binds with ⟨z, term, unbound, extended⟩
  obtain ⟨_, rfl⟩ := (extend_eq_ok_iff _ _ _ _).1 extended
  exact refers_prepend_iff.2 (Or.inr (refersPast_of_unbound unbound refers))

theorem Acyclic.of_grows {s s' : Substitution} (acyclic : s.Acyclic)
    (grows : s.Grows s') : s'.Acyclic := by
  induction grows with
  | refl => exact acyclic
  | tail _ binds before => exact before.of_binds binds

theorem WellFormed.of_grows {s s' : Substitution} (wellFormed : s.WellFormed)
    (grows : s.Grows s') : s'.WellFormed := by
  induction grows with
  | refl => exact wellFormed
  | tail _ binds before => exact before.of_binds binds

theorem Grows.refers {s s' : Substitution} (grows : s.Grows s') {x y : Var}
    (refers : s.Refers x y) : s'.Refers x y := by
  induction grows with
  | refl => exact refers
  | tail _ binds before => exact binds.refers before

/-- One step of unification binds an unbound variable or nothing. -/
theorem grows_of_reduce {s s' : Substitution} (acyclic : s.Acyclic)
    {equation : Equation} {simpler : List Equation}
    (reduced : s.reduce equation = .ok (simpler, s')) : s.Grows s' := by
  have step := s.reduction_reduce equation
  generalize s.reduce equation = outcome at reduced step
  cases step with
  | sameVar left right =>
      simp only [Except.ok.injEq, Prod.mk.injEq] at reduced
      exact reduced.2 ▸ .refl
  | bindLeft left right different =>
      obtain ⟨_, extended, _⟩ := satisfies_of_extend reduced
      exact .single ⟨_, _, unbound_of_walk acyclic left, extended⟩
  | bindRight left right rigid =>
      obtain ⟨_, extended, _⟩ := satisfies_of_extend reduced
      exact .single ⟨_, _, unbound_of_walk acyclic right, extended⟩
  | split left right passedOn =>
      simp only [Except.ok.injEq, Prod.mk.injEq] at reduced
      exact reduced.2 ▸ .refl
  | exhausted left right passedOn => simp at reduced
  | sameAtom left right equal =>
      simp only [Except.ok.injEq, Prod.mk.injEq] at reduced
      exact reduced.2 ▸ .refl
  | clash apart => simp at reduced

/-- A run of unification binds unbound variables one after the other. -/
theorem grows_of_solve {s s' : Substitution} (acyclic : s.Acyclic)
    {stack : List Equation} (solved : s.solve stack = .ok s') :
    s.Grows s' := by
  fun_induction solve s stack with
  | case1 s =>
      simp only [Except.ok.injEq] at solved
      exact solved ▸ .refl
  | case2 s equation rest failure reduced => simp at solved
  | case3 s equation rest simpler grown reduced onSimpler =>
      have grows := grows_of_reduce acyclic reduced
      exact grows.trans (onSimpler (acyclic.of_grows grows) solved)

/-! ### Substitutions that can be built -/

/-- The substitutions built from the empty one by unifying terms and by
binding variables that are unbound at that moment. -/
inductive Built : Substitution → Prop where
  | empty : Built .empty
  | unify {s s' : Substitution} {left right : Term} (before : Built s)
      (unified : s.unify left right = .ok s') : Built s'
  | extend {s s' : Substitution} {x : Var} {term : Term} (before : Built s)
      (unbound : s.lookup x = none) (extended : s.extend x term = .ok s') :
      Built s'

theorem wellFormed_empty : empty.WellFormed := by
  constructor
  · exact List.nodup_nil
  · intro x cycle
    obtain ⟨y, first, _⟩ := TransGen.head'_iff.1 cycle
    exact not_refers_of_unbound rfl first

theorem Built.wellFormed {s : Substitution} (built : s.Built) :
    s.WellFormed := by
  induction built with
  | empty => exact wellFormed_empty
  | unify _ unified before =>
      exact before.of_grows (grows_of_solve before.acyclic unified)
  | extend _ unbound extended before =>
      exact before.of_binds ⟨_, _, unbound, extended⟩

end Substitution

/-! ### Equations without a solution -/

theorem Term.size_eq_of_eqv {left right : Term}
    (equal : left.eqv right = true) : left.size = right.size := by
  induction left generalizing right with
  | var x =>
      cases right with
      | var y => rfl
      | _ => simp [eqv] at equal
  | atom a =>
      cases right with
      | atom b => rfl
      | _ => simp [eqv] at equal
  | pair first second onFirst onSecond =>
      cases right with
      | pair first' second' =>
          simp only [eqv_pair, Bool.and_eq_true] at equal
          simp [size, onFirst equal.1, onSecond equal.2]
      | _ => simp [eqv] at equal

/-- The value of a variable is a part of the value of a term that contains
it. -/
theorem Term.size_image_le (θ : Valuation) {term : Term} {x : Var}
    (member : x ∈ term.vars) : (θ x).size ≤ (term.subst θ).size := by
  induction term with
  | var y =>
      obtain rfl : x = y := by simpa [vars] using member
      exact le_refl _
  | atom a => simp [vars] at member
  | pair first second onFirst onSecond =>
      rw [subst_pair, size]
      rcases List.mem_append.mp member with member | member
      · have inside := onFirst member
        omega
      · have inside := onSecond member
        omega

namespace Valuation

theorem not_solves_of_clash (θ : Valuation) {left right : Term}
    (clash : left.Clash right) : ¬ θ.Solves left right := by
  intro solves
  cases clash with
  | atoms different =>
      rw [Solves, Term.subst_atom, Term.subst_atom, Term.eqv_atom] at solves
      simp [different] at solves
  | atomPair => simp [Solves, Term.eqv] at solves
  | pairAtom => simp [Solves, Term.eqv] at solves

/-- Along a path of bindings values do not grow. -/
theorem Satisfies.size_le_of_path {θ : Valuation} {s : Substitution}
    (satisfies : θ.Satisfies s) {x y : Var}
    (path : ReflTransGen s.Refers x y) : (θ y).size ≤ (θ x).size := by
  induction path with
  | refl => exact le_refl _
  | tail _ refers before =>
      rcases refers with ⟨term, bound, member⟩
      have equal := Term.size_eq_of_eqv (satisfies.lookup bound)
      have inside := Term.size_image_le θ member
      rw [Term.subst_var] at equal
      omega

/-- A variable that a pair leads to would have to be a proper part of
itself. -/
theorem Satisfies.not_solves_of_reaches {θ : Valuation} {s : Substitution}
    (satisfies : θ.Satisfies s) {x : Var} {first second : Term}
    (reaches : s.Reaches (.pair first second) x) :
    ¬ θ.Solves (.var x) (.pair first second) := by
  intro solves
  rcases reaches with ⟨y, member, path⟩
  have whole := Term.size_eq_of_eqv solves
  have below := satisfies.size_le_of_path path
  rw [Term.subst_var, Term.subst_pair, Term.size] at whole
  rw [Term.vars, List.mem_append] at member
  rcases member with member | member
  · have inside := Term.size_image_le θ member
    omega
  · have inside := Term.size_image_le θ member
    omega

end Valuation

/-! ### The allowance of an equation

The variables that have been crossed on the way down to the left side of an
equation lead to all of its variables.  They are different from each other, so
there are no more of them than there are variables. -/

theorem Var.length_le_capacity {vars : List Var} (nodup : vars.Nodup) :
    vars.length ≤ Var.capacity := by
  have distinct : (vars.map Var.id).Nodup :=
    nodup.map fun x y same => Var.ext same
  have below : vars.map Var.id ⊆ List.range Var.capacity := by
    intro id member
    obtain ⟨x, _, rfl⟩ := List.mem_map.mp member
    exact List.mem_range.mpr x.inRange
  have counted := (List.subperm_of_subset distinct below).length_le
  rwa [List.length_map, List.length_range] at counted

/-- The allowance covers the variables that have not been crossed yet. -/
def Equation.Funded (s : Substitution) (equation : Equation) : Prop :=
  ∃ crossed : List Var, crossed.Nodup ∧
    Var.capacity ≤ crossed.length + equation.allowance ∧
    ∀ x ∈ crossed, ∀ y ∈ equation.left.vars, TransGen s.Refers x y

namespace Equation

theorem Funded.of_grows {s s' : Substitution} {equation : Equation}
    (funded : equation.Funded s) (grows : s.Grows s') :
    equation.Funded s' := by
  rcases funded with ⟨crossed, nodup, covers, leads⟩
  refine ⟨crossed, nodup, covers, fun x member y among => ?_⟩
  exact TransGen.mono (fun _ _ refers => grows.refers refers) _ _
    (leads x member y among)

/-- There is something left to pass on when two pairs are met, and it covers
what has not been crossed below them. -/
theorem Funded.passedOn {s : Substitution} (acyclic : s.Acyclic)
    {equation : Equation} (funded : equation.Funded s) {first second : Term}
    (walked : s.walk equation.left = .pair first second) :
    ∃ allowance, equation.passedOn = some allowance ∧
      ∃ crossed : List Var, crossed.Nodup ∧
        Var.capacity ≤ crossed.length + allowance ∧
        ∀ x ∈ crossed, ∀ y ∈ (Term.pair first second).vars,
          TransGen s.Refers x y := by
  rcases equation with ⟨left, right, allowance⟩
  rcases funded with ⟨crossed, nodup, covers, leads⟩
  cases left with
  | var x =>
      have absent : x ∉ crossed := by
        intro member
        exact acyclic x (leads x member x (by simp [Term.vars]))
      have distinct : (x :: crossed).Nodup := List.nodup_cons.2 ⟨absent, nodup⟩
      have inRange := Var.length_le_capacity distinct
      rw [List.length_cons] at inRange
      simp only at covers
      cases allowance with
      | zero => omega
      | succ remaining =>
          have below : ∀ y ∈ (Term.pair first second).vars,
              TransGen s.Refers x y := by
            intro y among
            rcases Substitution.transGen_of_walk acyclic x with same | further
            · rw [same] at walked
              cases walked
            · exact further y (walked ▸ among)
          refine ⟨remaining, rfl, x :: crossed, distinct, ?_, ?_⟩
          · rw [List.length_cons]
            omega
          · intro z member y among
            rcases List.mem_cons.mp member with rfl | member
            · exact below y among
            · exact (leads z member x (by simp [Term.vars])).trans
                (below y among)
  | atom a => cases walked
  | pair a b =>
      cases walked
      exact ⟨allowance, rfl, crossed, nodup, covers, leads⟩

end Equation

namespace Substitution

/-- The equations that replace a funded one are funded. -/
theorem funded_of_reduce {s s' : Substitution} (acyclic : s.Acyclic)
    {equation : Equation} (funded : equation.Funded s)
    {simpler : List Equation}
    (reduced : s.reduce equation = .ok (simpler, s')) :
    ∀ e ∈ simpler, e.Funded s' := by
  have step := s.reduction_reduce equation
  generalize s.reduce equation = outcome at reduced step
  cases step with
  | sameVar left right =>
      simp only [Except.ok.injEq, Prod.mk.injEq] at reduced
      rcases reduced with ⟨rfl, _⟩
      simp
  | bindLeft left right different =>
      obtain ⟨rfl, _⟩ := satisfies_of_extend reduced
      simp
  | bindRight left right rigid =>
      obtain ⟨rfl, _⟩ := satisfies_of_extend reduced
      simp
  | split left right passedOn =>
      simp only [Except.ok.injEq, Prod.mk.injEq] at reduced
      rcases reduced with ⟨rfl, rfl⟩
      obtain ⟨allowance, passedOn', crossed, nodup, covers, leads⟩ :=
        funded.passedOn acyclic left
      rw [passedOn, Option.some.injEq] at passedOn'
      subst passedOn'
      intro e member
      simp only [List.mem_cons, List.not_mem_nil, or_false] at member
      rcases member with rfl | rfl
      · exact ⟨crossed, nodup, covers, fun x among y inFirst =>
          leads x among y (by simp [Term.vars, inFirst])⟩
      · exact ⟨crossed, nodup, covers, fun x among y inSecond =>
          leads x among y (by simp [Term.vars, inSecond])⟩
  | exhausted left right passedOn => simp at reduced
  | sameAtom left right equal =>
      simp only [Except.ok.injEq, Prod.mk.injEq] at reduced
      rcases reduced with ⟨rfl, _⟩
      simp
  | clash apart => simp at reduced

/-- A step leaves a stack that is funded throughout. -/
theorem funded_append_of_reduce {s s' : Substitution} (acyclic : s.Acyclic)
    {equation : Equation} {rest simpler : List Equation}
    (funded : ∀ e ∈ equation :: rest, e.Funded s)
    (reduced : s.reduce equation = .ok (simpler, s')) :
    ∀ e ∈ simpler ++ rest, e.Funded s' := by
  intro e member
  rcases List.mem_append.mp member with replaces | waits
  · exact funded_of_reduce acyclic (funded equation (by simp)) reduced e
      replaces
  · exact (funded e (by simp [waits])).of_grows
      (grows_of_reduce acyclic reduced)

/-- A failed occurs check leaves no solution. -/
theorem not_solves_of_extend {s : Substitution} (acyclic : s.Acyclic)
    {θ : Valuation} (satisfies : θ.Satisfies s) {x : Var} {term side : Term}
    (walked : s.walk side = term) (different : term ≠ .var x)
    {failure : Failure} (failed : s.extend x term = .error failure) :
    ¬ θ.Solves (.var x) term := by
  obtain ⟨caught, _⟩ := (extend_eq_error_iff _ _ _ _).1 failed
  obtain ⟨_, reaches⟩ := (occurs_iff acyclic).1 caught
  cases term with
  | var y =>
      -- A walked variable is unbound, so it leads to no other variable.
      have unbound := unbound_of_walk acyclic walked
      rcases reaches with ⟨z, member, path⟩
      obtain rfl : z = y := by simpa [Term.vars] using member
      have same := eq_of_reflTransGen_unbound unbound path
      exact absurd (congrArg Term.var same) different
  | atom a =>
      rcases reaches with ⟨z, member, _⟩
      simp [Term.vars] at member
  | pair first second => exact satisfies.not_solves_of_reaches reaches

theorem extend_of_map_error {s : Substitution} {x : Var} {term : Term}
    {failure : Failure}
    (failed : (s.extend x term).map (([] : List Equation), ·) =
      .error failure) : s.extend x term = .error failure := by
  cases outcome : s.extend x term with
  | error found =>
      rw [outcome] at failed
      simpa [Except.map] using failed
  | ok grown =>
      rw [outcome] at failed
      simp [Except.map] at failed

/-- A step that fails has met an equation without a solution. -/
theorem unsolvable_of_reduce {s : Substitution} (acyclic : s.Acyclic)
    {equation : Equation} (funded : equation.Funded s) {failure : Failure}
    (failed : s.reduce equation = .error failure) {θ : Valuation}
    (satisfies : θ.Satisfies s) :
    ¬ θ.Solves equation.left equation.right := by
  intro solves
  have walkedSolves := (satisfies.solves_walk_iff _ _).2 solves
  have step := s.reduction_reduce equation
  generalize s.reduce equation = outcome at failed step
  cases step with
  | sameVar left right => simp at failed
  | bindLeft left right different =>
      rw [left, right] at walkedSolves
      exact not_solves_of_extend acyclic satisfies right different
        (extend_of_map_error failed) walkedSolves
  | bindRight left right rigid =>
      rw [left, right] at walkedSolves
      exact not_solves_of_extend acyclic satisfies left (rigid _)
        (extend_of_map_error failed) walkedSolves.symm
  | split left right passedOn => simp at failed
  | exhausted left right passedOn =>
      obtain ⟨allowance, passedOn', _⟩ := funded.passedOn acyclic left
      simp [passedOn] at passedOn'
  | sameAtom left right equal => simp at failed
  | clash apart => exact θ.not_solves_of_clash apart walkedSolves

/-- A run that fails has been given a stack without a solution. -/
theorem unsolvable_of_solve {s : Substitution} (wellFormed : s.WellFormed)
    {stack : List Equation} (funded : ∀ e ∈ stack, e.Funded s)
    {failure : Failure} (failed : s.solve stack = .error failure)
    {θ : Valuation} (satisfies : θ.Satisfies s) : ¬ θ.SolvesAll stack := by
  fun_induction solve s stack with
  | case1 s => simp at failed
  | case2 s equation rest found reduced =>
      intro solves
      have top := (Valuation.solvesAll_cons_iff.1 solves).1
      exact unsolvable_of_reduce wellFormed.acyclic
        (funded equation (by simp)) reduced satisfies top
  | case3 s equation rest simpler grown reduced onSimpler =>
      intro solves
      obtain ⟨top, below⟩ := Valuation.solvesAll_cons_iff.1 solves
      have grows := grows_of_reduce wellFormed.acyclic reduced
      have funded' :=
        funded_append_of_reduce wellFormed.acyclic funded reduced
      obtain ⟨satisfies', replaced⟩ :=
        (satisfies_of_reduce reduced θ).2 ⟨satisfies, top⟩
      exact onSimpler (wellFormed.of_grows grows) funded' failed satisfies'
        (Valuation.solvesAll_append_iff.2 ⟨replaced, below⟩)

/-! ### Unification -/

theorem funded_start (s : Substitution) (left right : Term) :
    (Equation.mk left right Var.capacity).Funded s :=
  ⟨[], List.nodup_nil, by simp, by simp⟩

theorem funded_unify (s : Substitution) (left right : Term) :
    ∀ e ∈ [Equation.mk left right Var.capacity], e.Funded s := by
  intro e member
  rw [List.mem_singleton.mp member]
  exact s.funded_start left right

theorem not_solves_of_unify_error {s : Substitution}
    (wellFormed : s.WellFormed) {left right : Term} {failure : Failure}
    (failed : s.unify left right = .error failure) {θ : Valuation}
    (satisfies : θ.Satisfies s) : ¬ θ.Solves left right := by
  intro solves
  exact unsolvable_of_solve wellFormed (s.funded_unify left right) failed
    satisfies (by simpa using solves)

/-- Unification finds a most general solution relative to the substitution it
starts from: a valuation satisfies the result if and only if it satisfies the
start and makes the two terms equal. -/
theorem unify_mostGeneral {s s' : Substitution} {left right : Term}
    (unified : s.unify left right = .ok s') (θ : Valuation) :
    θ.Satisfies s' ↔ θ.Satisfies s ∧ θ.Solves left right := by
  rw [satisfies_of_solve unified θ]
  simp

/-- A variable is bound to another one before that one is bound to a word, and the
word is then met in another spelling, which its type does not tell from it. -/
theorem unify_mostGeneral_chain :
    ∃ (x y : Var) (upper lower : Atom) (s : Substitution),
      upper.value ≠ lower.value ∧ upper.eqv lower = true ∧
      empty.unify (.pair (.var x) (.pair (.var x) (.atom lower)))
        (.pair (.var y) (.pair (.atom upper) (.var y))) = .ok s ∧
      s.mappings = [⟨y, .atom upper⟩, ⟨x, .var y⟩] ∧
      ∀ θ : Valuation, θ.Satisfies s ↔ θ.Satisfies empty ∧
        θ.Solves (.pair (.var x) (.pair (.var x) (.atom lower)))
          (.pair (.var y) (.pair (.atom upper) (.var y))) := by
  let x : Var := ⟨0, by decide⟩
  let y : Var := ⟨1, by decide⟩
  let upper : Atom := ⟨.tagged "Word" "A" (some "a"), .root 0⟩
  let lower : Atom := ⟨.tagged "Word" "a" (some "a"), .root 1⟩
  have unified : empty.unify (.pair (.var x) (.pair (.var x) (.atom lower)))
      (.pair (.var y) (.pair (.atom upper) (.var y))) =
      .ok ((empty.prepend ⟨x, .var y⟩).prepend ⟨y, .atom upper⟩) := by
    cbv
  exact ⟨x, y, upper, lower, _, by decide, by decide, unified, rfl,
    unify_mostGeneral unified⟩

/-- Unification fails exactly where no valuation satisfies the substitution it
starts from and makes the two terms equal. -/
theorem unify_fails_iff {s : Substitution} (built : s.Built)
    (left right : Term) :
    (∃ failure, s.unify left right = .error failure) ↔
      ¬ ∃ θ : Valuation, θ.Satisfies s ∧ θ.Solves left right := by
  constructor
  · intro fails solution
    rcases fails with ⟨failure, failed⟩
    rcases solution with ⟨θ, satisfies, solves⟩
    exact not_solves_of_unify_error built.wellFormed failed satisfies solves
  · intro unsolvable
    cases outcome : s.unify left right with
    | error failure => exact ⟨failure, rfl⟩
    | ok s' =>
        have wellFormed := (Built.unify built outcome).wellFormed
        have solved := (satisfies_of_solve outcome s'.solution).1
          wellFormed.satisfies_solution
        exact absurd ⟨s'.solution, by simpa using solved⟩ unsolvable

/-- A variable bound to a list that holds another one cannot be made equal to
that other one. -/
theorem unify_fails_iff_cycle :
    (empty.prepend ⟨⟨0, by decide⟩, .pair (.var ⟨1, by decide⟩) .nil⟩).Built ∧
    ¬ ∃ θ : Valuation,
      θ.Satisfies
        (empty.prepend ⟨⟨0, by decide⟩, .pair (.var ⟨1, by decide⟩) .nil⟩) ∧
      θ.Solves (.var ⟨1, by decide⟩) (.var ⟨0, by decide⟩) := by
  have built : (empty.prepend
      ⟨⟨0, by decide⟩, .pair (.var ⟨1, by decide⟩) .nil⟩).Built :=
    .extend .empty rfl ((extend_eq_ok_iff _ _ _ _).2 ⟨by decide, rfl⟩)
  refine ⟨built, (unify_fails_iff built _ _).1 ⟨.occurs ⟨1, by decide⟩
    (.pair (.var ⟨1, by decide⟩) .nil), ?_⟩⟩
  cbv

end Substitution

end Relational
