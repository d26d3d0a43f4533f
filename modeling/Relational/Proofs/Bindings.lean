/-
Module: Relational.Proofs.Bindings
Purpose: Substitutions without cycles, and what walking, the occurs check and
  resolution compute on them.
Main exports: Substitution.Refers, Substitution.Acyclic,
  Substitution.WellFormed, Substitution.depth,
  Substitution.Acyclic.termInduction, Substitution.walk_of_lookup,
  Substitution.occurs_iff, Substitution.resolve_of_lookup,
  Substitution.solution
-/
import Mathlib.Data.Set.Card
import Mathlib.Logic.Relation
import Relational.Proofs.Valuation
import Relational.Substitution.Reify

namespace Relational.Substitution

open Relation

/-!
The bindings of a substitution form a graph: a bound variable refers to every
variable of the term it is bound to.  Everything that follows bindings ends
because this graph has no cycle, and the number of mappings bounds how far it
can go: the bound variables that can be met from a variable become fewer with
every binding that is crossed.  Their number is the depth of the variable.
-/

/-! ### The graph of bindings -/

/-- The variable `x` is bound to a term that contains `y`. -/
def Refers (s : Substitution) (x y : Var) : Prop :=
  ∃ term, s.lookup x = some term ∧ y ∈ term.vars

/-- No variable leads back to itself. -/
def Acyclic (s : Substitution) : Prop :=
  ∀ x, ¬ TransGen s.Refers x x

/-- Some variable of the term leads to `x`, or is `x`. -/
def Reaches (s : Substitution) (term : Term) (x : Var) : Prop :=
  ∃ y ∈ term.vars, ReflTransGen s.Refers y x

/-- Every variable is bound at most once, and no variable leads back to
itself. -/
structure WellFormed (s : Substitution) : Prop where
  functional : (s.mappings.map Mapping.var).Nodup
  acyclic : s.Acyclic

theorem lookup_eq_none_iff {s : Substitution} {x : Var} :
    s.lookup x = none ↔ x ∉ s.mappings.map Mapping.var := by
  have search : ∀ mappings : List Mapping,
      lookup.go x mappings = none ↔ x ∉ mappings.map Mapping.var := by
    intro mappings
    induction mappings with
    | nil => simp [lookup.go]
    | cons mapping older onOlder =>
        rw [lookup.go]
        by_cases same : mapping.var = x
        · simp [same]
        · rw [if_neg same, onOlder, List.map_cons, List.mem_cons, not_or]
          exact ⟨fun absent => ⟨Ne.symm same, absent⟩, And.right⟩
  exact search s.mappings

/-- Where variables are bound at most once, a mapping is what counts for its
variable. -/
theorem lookup_of_mem {s : Substitution}
    (functional : (s.mappings.map Mapping.var).Nodup) {mapping : Mapping}
    (member : mapping ∈ s.mappings) :
    s.lookup mapping.var = some mapping.term := by
  have search : ∀ mappings : List Mapping,
      (mappings.map Mapping.var).Nodup → mapping ∈ mappings →
        lookup.go mapping.var mappings = some mapping.term := by
    intro mappings nodup among
    induction mappings with
    | nil => simp at among
    | cons newest older onOlder =>
        rw [List.map_cons, List.nodup_cons] at nodup
        rw [lookup.go]
        rcases List.mem_cons.mp among with rfl | among
        · simp
        · have different : newest.var ≠ mapping.var := by
            intro same
            exact nodup.1 (same ▸ List.mem_map_of_mem among)
          rw [if_neg different]
          exact onOlder nodup.2 among
  exact search s.mappings functional member

theorem not_refers_of_unbound {s : Substitution} {x y : Var}
    (unbound : s.lookup x = none) : ¬ s.Refers x y := by
  rintro ⟨term, bound, _⟩
  simp [unbound] at bound

/-- An unbound variable leads nowhere. -/
theorem eq_of_reflTransGen_unbound {s : Substitution} {x y : Var}
    (unbound : s.lookup x = none) (path : ReflTransGen s.Refers x y) :
    x = y := by
  rcases ReflTransGen.cases_head path with same | ⟨next, first, _⟩
  · exact same
  · exact absurd first (not_refers_of_unbound unbound)

/-! ### Depth -/

/-- The bound variables that can be met from a variable, with itself. -/
def reachableBound (s : Substitution) (x : Var) : Set Var :=
  {y | s.lookup y ≠ none ∧ ReflTransGen s.Refers x y}

/-- How many bound variables can be met from a variable. -/
noncomputable def depth (s : Substitution) (x : Var) : Nat :=
  (s.reachableBound x).ncard

theorem reachableBound_subset (s : Substitution) (x : Var) :
    s.reachableBound x ⊆ ↑(s.mappings.map Mapping.var).toFinset := by
  rintro y ⟨bound, _⟩
  have listed : y ∈ s.mappings.map Mapping.var := by
    by_contra absent
    exact bound (lookup_eq_none_iff.2 absent)
  simpa using listed

theorem reachableBound_finite (s : Substitution) (x : Var) :
    (s.reachableBound x).Finite :=
  (Finset.finite_toSet _).subset (s.reachableBound_subset x)

/-- No variable is deeper than the substitution has mappings. -/
theorem depth_le_size (s : Substitution) (x : Var) : s.depth x ≤ s.size := by
  have covered := Set.ncard_le_ncard (s.reachableBound_subset x)
    (Finset.finite_toSet _)
  rw [Set.ncard_coe_finset] at covered
  have counted := List.toFinset_card_le (s.mappings.map Mapping.var)
  rw [List.length_map, ← s.size_eq] at counted
  exact covered.trans counted

/-- A variable without depth is unbound. -/
theorem unbound_of_depth {s : Substitution} {x : Var}
    (shallow : s.depth x ≤ 0) : s.lookup x = none := by
  by_contra bound
  have itself : x ∈ s.reachableBound x := ⟨bound, .refl⟩
  have positive := (Set.ncard_pos (s.reachableBound_finite x)).2 ⟨x, itself⟩
  exact absurd shallow (Nat.not_le.2 positive)

/-- Crossing a binding leads to a variable of smaller depth. -/
theorem depth_lt_of_refers {s : Substitution} (acyclic : s.Acyclic)
    {x y : Var} (refers : s.Refers x y) : s.depth y < s.depth x := by
  refine Set.ncard_lt_ncard ⟨?_, ?_⟩ (s.reachableBound_finite x)
  · rintro z ⟨bound, path⟩
    exact ⟨bound, .head refers path⟩
  · intro back
    rcases refers with ⟨term, bound, _⟩
    have itself : x ∈ s.reachableBound x := ⟨by simp [bound], .refl⟩
    exact acyclic x (.head' ⟨term, bound, ‹_›⟩ (back itself).2)

theorem depth_lt_of_transGen {s : Substitution} (acyclic : s.Acyclic)
    {x y : Var} (path : TransGen s.Refers x y) : s.depth y < s.depth x := by
  induction path with
  | single refers => exact depth_lt_of_refers acyclic refers
  | tail _ refers further =>
      exact (depth_lt_of_refers acyclic refers).trans further

/-- Induction from what a variable refers to up to the variable. -/
theorem Acyclic.induction {s : Substitution} (acyclic : s.Acyclic)
    {motive : Var → Prop}
    (step : ∀ x, (∀ y, s.Refers x y → motive y) → motive x) (x : Var) :
    motive x := by
  induction measured : s.depth x using Nat.strong_induction_on
    generalizing x with
  | _ n shallower =>
      apply step x
      intro y refers
      have smaller : s.depth y < n := measured ▸ depth_lt_of_refers acyclic refers
      exact shallower (s.depth y) smaller y rfl

/-- Induction on a term along the bindings: a bound variable comes after the
term it is bound to. -/
@[elab_as_elim]
theorem Acyclic.termInduction {s : Substitution}
    (acyclic : s.Acyclic) {motive : Term → Prop}
    (onUnbound : ∀ x, s.lookup x = none → motive (.var x))
    (onBound : ∀ x next, s.lookup x = some next → motive next →
      motive (.var x))
    (onAtom : ∀ a, motive (.atom a))
    (onPair : ∀ first second, motive first → motive second →
      motive (.pair first second)) (term : Term) : motive term := by
  have onVars : ∀ term : Term,
      (∀ x ∈ term.vars, motive (.var x)) → motive term := by
    intro term onVar
    induction term with
    | var x => exact onVar x (by simp [Term.vars])
    | atom a => exact onAtom a
    | pair first second onFirst onSecond =>
        exact onPair first second
          (onFirst fun x member => onVar x (by simp [Term.vars, member]))
          (onSecond fun x member => onVar x (by simp [Term.vars, member]))
  have onVar : ∀ x, motive (.var x) := by
    intro x
    induction x using acyclic.induction with
    | step x onReferred =>
        cases bound : s.lookup x with
        | none => exact onUnbound x bound
        | some next =>
            exact onBound x next bound (onVars next fun y member =>
              onReferred y ⟨next, bound, member⟩)
  exact onVars term fun x _ => onVar x

/-! ### Walking -/

theorem follow_of_unbound {s : Substitution} {x : Var}
    (unbound : s.lookup x = none) (limit : Nat) :
    s.follow limit x = .var x := by
  cases limit with
  | zero => rfl
  | succ limit => rw [follow, unbound]

/-- Limits that cover the depth of a variable lead to the same end. -/
theorem follow_congr {s : Substitution} (acyclic : s.Acyclic)
    {limit limit' : Nat} {x : Var} (enough : s.depth x ≤ limit)
    (enough' : s.depth x ≤ limit') :
    s.follow limit x = s.follow limit' x := by
  induction limit generalizing limit' x with
  | zero =>
      have unbound := unbound_of_depth enough
      rw [follow_of_unbound unbound, follow_of_unbound unbound]
  | succ limit shorter =>
      cases limit' with
      | zero =>
          have unbound := unbound_of_depth enough'
          rw [follow_of_unbound unbound, follow_of_unbound unbound]
      | succ limit' =>
          rw [follow, follow]
          split
          · rfl
          · rename_i y bound
            have smaller : s.depth y < s.depth x :=
              depth_lt_of_refers acyclic ⟨_, bound, by simp [Term.vars]⟩
            exact shorter (by omega) (by omega)
          · rfl

theorem walk_of_unbound {s : Substitution} {x : Var}
    (unbound : s.lookup x = none) : s.walk (.var x) = .var x :=
  follow_of_unbound unbound s.size

/-- Walking from a bound variable goes on from what it is bound to. -/
theorem walk_of_lookup {s : Substitution} (acyclic : s.Acyclic) {x : Var}
    {term : Term} (bound : s.lookup x = some term) :
    s.walk (.var x) = s.walk term := by
  have deep : s.depth x ≤ s.size := s.depth_le_size x
  cases size : s.size with
  | zero =>
      have unbound := unbound_of_depth (size ▸ deep)
      simp [unbound] at bound
  | succ limit =>
      rw [walk, size, follow, bound]
      cases term with
      | var y =>
          have smaller : s.depth y < s.depth x :=
            depth_lt_of_refers acyclic ⟨_, bound, by simp [Term.vars]⟩
          exact follow_congr acyclic (by omega) (s.depth_le_size y)
      | atom a => rfl
      | pair first second => rfl

theorem walk_eq_self_of_rigid (s : Substitution) {term : Term}
    (rigid : ∀ x, term ≠ .var x) : s.walk term = term := by
  cases term with
  | var x => exact absurd rfl (rigid x)
  | atom a => rfl
  | pair first second => rfl

/-- Walking ends at an unbound variable if it ends at a variable. -/
theorem unbound_of_walk {s : Substitution} (acyclic : s.Acyclic) {term : Term}
    {x : Var} (walked : s.walk term = .var x) : s.lookup x = none := by
  have fromVar : ∀ y, s.walk (.var y) = .var x → s.lookup x = none := by
    intro y
    induction y using acyclic.induction with
    | step y onReferred =>
        intro walked
        cases bound : s.lookup y with
        | none =>
            rw [walk_of_unbound bound, Term.var.injEq] at walked
            exact walked ▸ bound
        | some next =>
            rw [walk_of_lookup acyclic bound] at walked
            cases next with
            | var z => exact onReferred z ⟨_, bound, by simp [Term.vars]⟩ walked
            | atom a => simp [walk] at walked
            | pair first second => simp [walk] at walked
  cases term with
  | var y => exact fromVar y walked
  | atom a => simp [walk] at walked
  | pair first second => simp [walk] at walked

/-- Walking from a variable stays there or crosses bindings. -/
theorem transGen_of_walk {s : Substitution} (acyclic : s.Acyclic) (x : Var) :
    s.walk (.var x) = .var x ∨
      ∀ y ∈ (s.walk (.var x)).vars, TransGen s.Refers x y := by
  induction x using acyclic.induction with
  | step x onReferred =>
      cases bound : s.lookup x with
      | none => exact Or.inl (walk_of_unbound bound)
      | some next =>
          rw [walk_of_lookup acyclic bound]
          right
          intro y member
          by_cases isVar : ∃ z, next = .var z
          · rcases isVar with ⟨z, rfl⟩
            have refers : s.Refers x z := ⟨_, bound, by simp [Term.vars]⟩
            rcases onReferred z refers with same | further
            · rw [same, Term.vars, List.mem_singleton] at member
              exact member ▸ .single refers
            · exact .head refers (further y member)
          · rw [walk_eq_self_of_rigid s
              fun z same => isVar ⟨z, same⟩] at member
            exact .single ⟨next, bound, member⟩

/-- A pair that is fetched for a variable holds variables of smaller depth. -/
theorem depth_lt_of_walk {s : Substitution} (acyclic : s.Acyclic) {x y : Var}
    {first second : Term} (walked : s.walk (.var x) = .pair first second)
    (member : y ∈ (Term.pair first second).vars) : s.depth y < s.depth x := by
  rcases transGen_of_walk acyclic x with same | further
  · simp [walked] at same
  · exact depth_lt_of_transGen acyclic (further y (walked ▸ member))

/-- Walking keeps the unbound variables that can be reached. -/
theorem reaches_walk_iff {s : Substitution} (acyclic : s.Acyclic)
    {term : Term} {x : Var} (unbound : s.lookup x = none) :
    s.Reaches (s.walk term) x ↔ s.Reaches term x := by
  have fromVar : ∀ y, s.Reaches (s.walk (.var y)) x ↔
      s.Reaches (.var y) x := by
    intro y
    induction y using acyclic.induction with
    | step y onReferred =>
        cases bound : s.lookup y with
        | none => rw [walk_of_unbound bound]
        | some next =>
            have crossed : s.Reaches next x ↔ s.Reaches (.var y) x := by
              constructor
              · rintro ⟨z, member, path⟩
                exact ⟨y, by simp [Term.vars],
                  .head ⟨next, bound, member⟩ path⟩
              · rintro ⟨z, member, path⟩
                rw [Term.vars, List.mem_singleton] at member
                subst member
                rcases ReflTransGen.cases_head path with rfl | ⟨w, first, path⟩
                · simp [unbound] at bound
                · rcases first with ⟨_, found, member⟩
                  rw [bound, Option.some.injEq] at found
                  exact ⟨w, found ▸ member, path⟩
            rw [walk_of_lookup acyclic bound, ← crossed]
            by_cases isVar : ∃ z, next = .var z
            · rcases isVar with ⟨z, rfl⟩
              exact onReferred z ⟨_, bound, by simp [Term.vars]⟩
            · rw [walk_eq_self_of_rigid s fun z same => isVar ⟨z, same⟩]
  cases term with
  | var y => exact fromVar y
  | atom a => rfl
  | pair first second => rfl

/-! ### The occurs check -/

/-- The occurs check is exact as long as its limit covers the depth of the
variables of the term. -/
theorem occursWithin_iff {s : Substitution} (acyclic : s.Acyclic) {x : Var}
    {limit : Nat} {term : Term} (enough : ∀ y ∈ term.vars, s.depth y ≤ limit) :
    s.occursWithin x limit term = true ↔
      s.lookup x = none ∧ s.Reaches term x := by
  induction limit generalizing term with
  | zero =>
      rw [occursWithin, Term.anyVar_eq_any, List.any_eq_true]
      constructor
      · rintro ⟨y, member, same⟩
        have unbound := unbound_of_depth (enough y member)
        obtain rfl : y = x := by simpa using same
        exact ⟨unbound, y, member, .refl⟩
      · rintro ⟨_, y, member, path⟩
        have unbound := unbound_of_depth (enough y member)
        exact ⟨y, member, by simpa using eq_of_reflTransGen_unbound unbound path⟩
  | succ limit closer =>
      have onVars : s.occursWithin x (limit + 1) term =
          term.vars.any fun y => s.occursWithin x (limit + 1) (.var y) :=
        Term.anyVar_eq_any _ _
      rw [onVars, List.any_eq_true]
      -- What the check says of one variable is what can be reached from where
      -- walking from it ends.
      have onVar : ∀ y ∈ term.vars,
          s.occursWithin x (limit + 1) (.var y) = true ↔
            s.lookup x = none ∧ s.Reaches (s.walk (.var y)) x := by
        intro y member
        rw [occursWithin, Term.anyVar]
        cases walked : s.walk (.var y) with
        | var z =>
            have unbound := unbound_of_walk acyclic walked
            constructor
            · intro same
              obtain rfl : z = x := by simpa using same
              exact ⟨unbound, z, by simp [Term.vars], .refl⟩
            · rintro ⟨_, w, among, path⟩
              obtain rfl : w = z := by simpa [Term.vars] using among
              simpa using eq_of_reflTransGen_unbound unbound path
        | atom a => simp [Reaches, Term.vars]
        | pair first second =>
            refine closer fun w among => ?_
            have smaller := depth_lt_of_walk acyclic walked among
            have covered := enough y member
            omega
      constructor
      · rintro ⟨y, member, found⟩
        obtain ⟨unbound, reaches⟩ := (onVar y member).1 found
        obtain ⟨z, among, path⟩ := (reaches_walk_iff acyclic unbound).1 reaches
        obtain rfl : z = y := by simpa [Term.vars] using among
        exact ⟨unbound, z, member, path⟩
      · rintro ⟨unbound, y, member, path⟩
        have reaches : s.Reaches (s.walk (.var y)) x :=
          (reaches_walk_iff acyclic unbound).2 ⟨y, by simp [Term.vars], path⟩
        exact ⟨y, member, (onVar y member).2 ⟨unbound, reaches⟩⟩

/-- The occurs check finds the unbound variables that a term leads to. -/
theorem occurs_iff {s : Substitution} (acyclic : s.Acyclic) {x : Var}
    {term : Term} :
    s.occurs x term = true ↔ s.lookup x = none ∧ s.Reaches term x :=
  occursWithin_iff acyclic fun y _ => s.depth_le_size y

@[simp] theorem occurs_atom (s : Substitution) (x : Var) (a : Atom) :
    s.occurs x (.atom a) = false := by
  rw [occurs]
  cases s.size <;> rfl

@[simp] theorem occurs_pair (s : Substitution) (x : Var)
    (first second : Term) :
    s.occurs x (.pair first second) =
      (s.occurs x first || s.occurs x second) := by
  rw [occurs, occurs, occurs]
  cases s.size <;> rfl

theorem occurs_of_unbound {s : Substitution} {y : Var}
    (unbound : s.lookup y = none) (x : Var) :
    s.occurs x (.var y) = decide (y = x) := by
  rw [occurs]
  cases s.size with
  | zero => rfl
  | succ limit => rw [occursWithin, Term.anyVar, walk_of_unbound unbound]

/-- What occurs in a bound variable is what occurs in the term it is bound
to. -/
theorem occurs_of_lookup {s : Substitution} (acyclic : s.Acyclic) {y : Var}
    {term : Term} (bound : s.lookup y = some term) (x : Var) :
    s.occurs x (.var y) = s.occurs x term := by
  rw [Bool.eq_iff_iff, occurs_iff acyclic, occurs_iff acyclic]
  refine and_congr_right fun unbound => ?_
  rw [← reaches_walk_iff acyclic unbound, walk_of_lookup acyclic bound,
    reaches_walk_iff acyclic unbound]

/-! ### Resolution -/

@[simp] theorem resolveWithin_atom (s : Substitution) (limit : Nat)
    (a : Atom) : s.resolveWithin limit (.atom a) = .atom a := by
  cases limit <;> rfl

@[simp] theorem resolveWithin_pair (s : Substitution) (limit : Nat)
    (first second : Term) :
    s.resolveWithin limit (.pair first second) =
      .pair (s.resolveWithin limit first) (s.resolveWithin limit second) := by
  cases limit with
  | zero => rfl
  | succ limit => rw [resolveWithin, Term.subst_pair]

theorem resolveWithin_of_unbound {s : Substitution} {x : Var}
    (unbound : s.lookup x = none) (limit : Nat) :
    s.resolveWithin limit (.var x) = .var x := by
  cases limit with
  | zero => rfl
  | succ limit => simp [resolveWithin, walk_of_unbound unbound]

theorem resolveWithin_eq_of_vars {s : Substitution} {limit limit' : Nat}
    {term : Term}
    (same : ∀ x ∈ term.vars,
      s.resolveWithin limit (.var x) = s.resolveWithin limit' (.var x)) :
    s.resolveWithin limit term = s.resolveWithin limit' term := by
  induction term with
  | var x => exact same x (by simp [Term.vars])
  | atom a => rw [resolveWithin_atom, resolveWithin_atom]
  | pair first second onFirst onSecond =>
      rw [resolveWithin_pair, resolveWithin_pair,
        onFirst fun x member => same x (by simp [Term.vars, member]),
        onSecond fun x member => same x (by simp [Term.vars, member])]

/-- Limits that cover the depth of the variables of a term resolve it in the
same way. -/
theorem resolveWithin_congr {s : Substitution} (acyclic : s.Acyclic)
    {limit limit' : Nat} {term : Term}
    (enough : ∀ x ∈ term.vars, s.depth x ≤ limit)
    (enough' : ∀ x ∈ term.vars, s.depth x ≤ limit') :
    s.resolveWithin limit term = s.resolveWithin limit' term := by
  induction limit generalizing limit' term with
  | zero =>
      refine resolveWithin_eq_of_vars fun x member => ?_
      have unbound := unbound_of_depth (enough x member)
      rw [resolveWithin_of_unbound unbound, resolveWithin_of_unbound unbound]
  | succ limit closer =>
      refine resolveWithin_eq_of_vars fun x member => ?_
      cases limit' with
      | zero =>
          have unbound := unbound_of_depth (enough' x member)
          rw [resolveWithin_of_unbound unbound, resolveWithin_of_unbound unbound]
      | succ limit' =>
          rw [resolveWithin, resolveWithin, Term.subst_var, Term.subst_var]
          cases walked : s.walk (.var x) with
          | var y => rfl
          | atom a => rfl
          | pair first second =>
              have smaller (y : Var)
                  (among : y ∈ (Term.pair first second).vars) :=
                depth_lt_of_walk acyclic walked among
              have covered := enough x member
              have covered' := enough' x member
              refine closer (fun y among => ?_) (fun y among => ?_)
              · have := smaller y among
                omega
              · have := smaller y among
                omega

@[simp] theorem resolve_atom (s : Substitution) (a : Atom) :
    s.resolve (.atom a) = .atom a :=
  s.resolveWithin_atom s.size a

@[simp] theorem resolve_pair (s : Substitution) (first second : Term) :
    s.resolve (.pair first second) =
      .pair (s.resolve first) (s.resolve second) :=
  s.resolveWithin_pair s.size first second

theorem resolve_of_unbound {s : Substitution} {x : Var}
    (unbound : s.lookup x = none) : s.resolve (.var x) = .var x :=
  resolveWithin_of_unbound unbound s.size

/-- Resolving goes on from where walking ends. -/
theorem resolve_walk {s : Substitution} (acyclic : s.Acyclic) (term : Term) :
    s.resolve (s.walk term) = s.resolve term := by
  cases term with
  | var x =>
      cases bound : s.lookup x with
      | none => rw [walk_of_unbound bound]
      | some next =>
          have deep : s.depth x ≤ s.size := s.depth_le_size x
          cases size : s.size with
          | zero =>
              have unbound := unbound_of_depth (size ▸ deep)
              simp [unbound] at bound
          | succ limit =>
              conv_rhs => rw [resolve, size, resolveWithin, Term.subst_var]
              cases walked : s.walk (.var x) with
              | var y => exact resolve_of_unbound (unbound_of_walk acyclic walked)
              | atom a => exact s.resolve_atom a
              | pair first second =>
                  refine resolveWithin_congr acyclic
                    (fun y _ => s.depth_le_size y) fun y among => ?_
                  have smaller := depth_lt_of_walk acyclic walked among
                  omega
  | atom a => rfl
  | pair first second => rfl

/-- A bound variable stands for what it is bound to. -/
theorem resolve_of_lookup {s : Substitution} (acyclic : s.Acyclic) {x : Var}
    {term : Term} (bound : s.lookup x = some term) :
    s.resolve (.var x) = s.resolve term := by
  rw [← resolve_walk acyclic (.var x), walk_of_lookup acyclic bound,
    resolve_walk acyclic]

/-- What every variable stands for. -/
def solution (s : Substitution) : Valuation := fun x => s.resolve (.var x)

theorem subst_solution (s : Substitution) (term : Term) :
    term.subst s.solution = s.resolve term := by
  induction term with
  | var x => rfl
  | atom a => exact (s.resolve_atom a).symm
  | pair first second onFirst onSecond =>
      rw [Term.subst_pair, resolve_pair, onFirst, onSecond]

/-- A well-formed substitution is satisfied by what its variables stand
for. -/
theorem WellFormed.satisfies_solution {s : Substitution}
    (wellFormed : s.WellFormed) : s.solution.Satisfies s := by
  intro mapping member
  have bound := lookup_of_mem wellFormed.functional member
  have same : s.solution mapping.var = mapping.term.subst s.solution := by
    rw [subst_solution]
    exact resolve_of_lookup wellFormed.acyclic bound
  rw [Valuation.Solves, Term.subst_var, same]
  exact Term.eqv_refl _

end Relational.Substitution
