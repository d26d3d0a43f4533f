/-
Module: Relational.Proofs.Renaming
Purpose: Answers do not depend on which variables stand for the unknowns.
Main exports: Term.rename, Term.canonical, Term.canonical_rename,
  Substitution.Renames, Substitution.Renames.size_eq,
  Substitution.Renames.reify
-/
import Mathlib.Logic.Equiv.Defs
import Relational.Proofs.Growth
import Relational.Proofs.Similarity

namespace Relational

/-!
Two substitutions may have the same solutions and yet look different: where one
binds a variable to another, the other one may bind the latter to the former.
Each of them is an instance of the other, so what one leaves unbound the other
one leaves unbound under another name.  The canonical form of an answer names
variables by the order in which they occur, and so it is the same for both.

The solutions may also be the same only after some variables have been
exchanged.  This is what happens when variables are handed out in another order,
so everything below is said up to a renaming.
-/

/-! ### Renaming variables of terms -/

namespace Term

/-- The term with every variable replaced by another one. -/
def rename (ρ : Var → Var) (term : Term) : Term :=
  term.subst fun x => .var (ρ x)

@[simp] theorem rename_var (ρ : Var → Var) (x : Var) :
    (Term.var x).rename ρ = .var (ρ x) := rfl

@[simp] theorem rename_atom (ρ : Var → Var) (a : Atom) :
    (Term.atom a).rename ρ = .atom a := rfl

@[simp] theorem rename_pair (ρ : Var → Var) (first second : Term) :
    (Term.pair first second).rename ρ =
      .pair (first.rename ρ) (second.rename ρ) :=
  subst_pair _ first second

theorem vars_rename (ρ : Var → Var) (term : Term) :
    (term.rename ρ).vars = term.vars.map ρ := by
  induction term with
  | var x => rfl
  | atom a => rfl
  | pair first second onFirst onSecond => simp [vars, onFirst, onSecond]

/-- The values of a renamed term are those of the term, read through the
renaming. -/
theorem subst_rename (ρ : Var → Var) (θ : Valuation) (term : Term) :
    (term.rename ρ).subst θ = term.subst (θ ∘ ρ) := by
  induction term with
  | var x => rfl
  | atom a => rfl
  | pair first second onFirst onSecond => simp [onFirst, onSecond]

theorem rename_eq_self {ρ : Var → Var} {term : Term}
    (fixed : ∀ x ∈ term.vars, ρ x = x) : term.rename ρ = term := by
  induction term with
  | var x => rw [rename_var, fixed x (by simp [vars])]
  | atom a => rfl
  | pair first second onFirst onSecond =>
      rw [rename_pair, onFirst fun x member => fixed x (by simp [vars, member]),
        onSecond fun x member => fixed x (by simp [vars, member])]

/-- A term whose value is a variable is a variable. -/
theorem eq_var_of_subst {θ : Valuation} {term : Term} {x : Var}
    (value : term.subst θ = .var x) : ∃ y, term = .var y ∧ θ y = .var x := by
  cases term with
  | var y => exact ⟨y, rfl, value⟩
  | atom a => simp at value
  | pair first second => simp at value

end Term

/-! ### Canonical names -/

namespace Substitution

/-- A variable that has a name keeps it. -/
theorem lookup_nameNext {names : Substitution} {x : Var} {name : Term}
    (named : names.lookup x = some name) (y : Var) :
    (names.nameNext y).lookup x = some name := by
  cases found : names.lookup y with
  | some _ => rw [nameNext, found, named]
  | none =>
      have different : y ≠ x := by
        intro same
        rw [same, named] at found
        cases found
      rw [nameNext, found, lookup_prepend, if_neg different, named]

theorem lookup_nameNext_self (names : Substitution) (x : Var) :
    (names.nameNext x).lookup x ≠ none := by
  cases found : names.lookup x with
  | some name => simp [nameNext, found]
  | none => simp [nameNext, found, lookup_prepend]

theorem lookup_foldl_nameNext {vars : List Var} {names : Substitution}
    {x : Var} (named : names.lookup x ≠ none ∨ x ∈ vars) :
    (vars.foldl nameNext names).lookup x ≠ none := by
  induction vars generalizing names with
  | nil => simpa using named
  | cons y rest onRest =>
      apply onRest
      rcases named with named | member
      · obtain ⟨name, named⟩ := Option.ne_none_iff_exists'.1 named
        left
        rw [lookup_nameNext named]
        exact Option.some_ne_none name
      · rcases List.mem_cons.mp member with rfl | member
        · exact Or.inl (names.lookup_nameNext_self x)
        · exact Or.inr member

/-- Variables that are kept apart receive the same names under a renaming. -/
theorem lookup_foldl_nameNext_map {f : Var → Var} {among : Set Var}
    (injective : Set.InjOn f among) {vars : List Var}
    (inside : ∀ x ∈ vars, x ∈ among) {names names' : Substitution}
    (sizes : names'.size = names.size)
    (alike : ∀ x ∈ among, names'.lookup (f x) = names.lookup x) :
    ∀ x ∈ among, ((vars.map f).foldl nameNext names').lookup (f x) =
      (vars.foldl nameNext names).lookup x := by
  induction vars generalizing names names' with
  | nil => exact alike
  | cons y rest onRest =>
      have member : y ∈ among := inside y (by simp)
      have later : ∀ x ∈ rest, x ∈ among :=
        fun x member => inside x (List.mem_cons_of_mem y member)
      cases found : names.lookup y with
      | some name =>
          have found' : names'.lookup (f y) = some name :=
            (alike y member).trans found
          have kept : names.nameNext y = names := by rw [nameNext, found]
          have kept' : names'.nameNext (f y) = names' := by
            rw [nameNext, found']
          rw [List.map_cons, List.foldl_cons, List.foldl_cons, kept, kept']
          exact onRest later sizes alike
      | none =>
          have found' : names'.lookup (f y) = none :=
            (alike y member).trans found
          have added : names.nameNext y =
              names.prepend ⟨y, .reified names.size⟩ := by rw [nameNext, found]
          have added' : names'.nameNext (f y) =
              names'.prepend ⟨f y, .reified names'.size⟩ := by
            rw [nameNext, found']
          rw [List.map_cons, List.foldl_cons, List.foldl_cons, added, added']
          refine onRest later (by simp [size_prepend, sizes]) ?_
          intro x amongX
          rw [lookup_prepend, lookup_prepend, sizes, alike x amongX]
          by_cases same : y = x
          · rw [if_pos same, if_pos (congrArg f same)]
          · rw [if_neg same, if_neg fun images =>
              same (injective member amongX images)]

end Substitution

namespace Term

/-- The term with its variables named in the order in which they first
occur. -/
def canonical (term : Term) : Term :=
  term.subst fun x => (term.names.lookup x).getD (.var x)

theorem names_eq_foldl (term : Term) :
    term.names = term.vars.foldl Substitution.nameNext .empty :=
  foldVars_eq_foldl _ _ term

/-- A renaming that keeps the variables of a term apart does not change its
canonical form. -/
theorem canonical_rename {f : Var → Var} {term : Term}
    (injective : Set.InjOn f {x | x ∈ term.vars}) :
    (term.rename f).canonical = term.canonical := by
  rw [canonical, canonical, subst_rename]
  apply subst_congr
  intro x member
  have named : term.names.lookup x ≠ none := by
    rw [names_eq_foldl]
    exact Substitution.lookup_foldl_nameNext (Or.inr member)
  have same : (term.rename f).names.lookup (f x) = term.names.lookup x := by
    rw [names_eq_foldl, names_eq_foldl, vars_rename]
    exact Substitution.lookup_foldl_nameNext_map injective
      (fun _ among => among) rfl (fun _ _ => rfl) x member
  obtain ⟨name, named⟩ := Option.ne_none_iff_exists'.1 named
  simp only [Function.comp, same, named, Option.getD_some]

/-- Equal terms have equal canonical forms. -/
theorem canonical_eqv {left right : Term} (equal : left.eqv right = true) :
    left.canonical.eqv right.canonical = true := by
  rw [canonical, canonical, names_eq_foldl, names_eq_foldl,
    vars_eq_of_eqv equal]
  exact subst_eqv_of_eqv _ equal

end Term

/-! ### Similar substitutions -/

theorem Term.subst_eqv_of_images {θ θ' : Valuation}
    (equal : ∀ x, (θ x).eqv (θ' x) = true) (term : Term) :
    (term.subst θ).eqv (term.subst θ') = true := by
  induction term with
  | var x => exact equal x
  | atom a => exact eqv_refl _
  | pair first second onFirst onSecond => simp [onFirst, onSecond]

namespace Substitution

theorem Similar.resolveWithin {s s' : Substitution} (similar : s.Similar s')
    (limit : Nat) {term term' : Term} (equal : term.eqv term' = true) :
    (s.resolveWithin limit term).eqv (s'.resolveWithin limit term') = true := by
  induction limit generalizing term term' with
  | zero => exact equal
  | succ limit closer =>
      rw [Substitution.resolveWithin, Substitution.resolveWithin]
      refine Term.eqv_trans (Term.subst_eqv_of_eqv _ equal)
        (Term.subst_eqv_of_images (fun x => ?_) term')
      have walked := similar.walk (Term.eqv_refl (.var x))
      cases found : s.walk (.var x) with
      | var y =>
          rw [found] at walked
          rw [Term.eq_var_of_eqv walked]
          exact Term.eqv_refl _
      | atom a =>
          rw [found] at walked
          obtain ⟨b, found', same⟩ := Term.exists_atom_of_eqv walked
          rw [found']
          exact same
      | pair first second =>
          rw [found] at walked
          obtain ⟨first', second', found', _⟩ :=
            Term.exists_pair_of_eqv walked
          rw [found'] at walked ⊢
          exact closer walked

/-- Similar substitutions give equal answers. -/
theorem Similar.reify {s s' : Substitution} (similar : s.Similar s')
    (term : Term) : (s.reify term).eqv (s'.reify term) = true := by
  have resolved : (s.resolve term).eqv (s'.resolve term) = true := by
    rw [resolve, resolve, similar.size_eq]
    exact similar.resolveWithin s'.size term.eqv_refl
  exact Term.canonical_eqv resolved

end Substitution

/-! ### Resolved terms -/

theorem Valuation.Satisfies.solves_resolve {θ : Valuation} {s : Substitution}
    (acyclic : s.Acyclic) (satisfied : θ.Satisfies s) (term : Term) :
    θ.Solves term (s.resolve term) := by
  induction term using acyclic.termInduction with
  | onUnbound x unbound =>
      rw [Substitution.resolve_of_unbound unbound]
      exact θ.solves_refl _
  | onBound x next bound onNext =>
      rw [Substitution.resolve_of_lookup acyclic bound]
      exact (satisfied.lookup bound).trans onNext
  | onAtom a =>
      rw [Substitution.resolve_atom]
      exact θ.solves_refl _
  | onPair first second onFirst onSecond =>
      rw [Substitution.resolve_pair, solves_pair_iff]
      exact ⟨onFirst, onSecond⟩

/-- What is left in a resolved term is unbound. -/
theorem Substitution.unbound_of_mem_resolve {s : Substitution}
    (acyclic : s.Acyclic) {term : Term} {x : Var}
    (member : x ∈ (s.resolve term).vars) : s.lookup x = none := by
  induction term using acyclic.termInduction with
  | onUnbound y unbound =>
      rw [resolve_of_unbound unbound, Term.vars, List.mem_singleton] at member
      exact member ▸ unbound
  | onBound y next bound onNext =>
      rw [resolve_of_lookup acyclic bound] at member
      exact onNext member
  | onAtom a => simp [Term.vars] at member
  | onPair first second onFirst onSecond =>
      rw [resolve_pair, Term.vars, List.mem_append] at member
      exact member.elim onFirst onSecond

/-! ### Substitutions with the same solutions -/

/-- There are finitely many variables. -/
instance : Finite Var :=
  Finite.of_injective (fun x : Var => (⟨x.id, x.inRange⟩ : Fin Var.capacity))
    fun _ _ same => Var.ext (Fin.mk.inj same)

namespace Substitution

/-- The substitutions have the same solutions, up to a renaming of
variables. -/
def Renames (ρ : Var ≃ Var) (s s' : Substitution) : Prop :=
  ∀ θ : Valuation, θ.Satisfies s' ↔ Valuation.Satisfies (θ ∘ ρ) s

/-- The variable that a variable becomes under the renaming and the
substitution, if it becomes one. -/
def carry (ρ : Var ≃ Var) (s' : Substitution) (x : Var) : Var :=
  match s'.resolve (.var (ρ x)) with
  | .var y => y
  | _ => x

namespace Renames

variable {ρ : Var ≃ Var} {s s' : Substitution}

theorem symm (renames : Renames ρ s s') : Renames ρ.symm s' s := by
  intro θ
  have there := renames (θ ∘ ρ.symm)
  have back : (θ ∘ ρ.symm) ∘ ρ = θ := by
    funext x
    simp
  rw [back] at there
  exact there.symm

/-- A variable that one substitution leaves unbound is carried to a variable
that the other one leaves unbound, and the way back leads to it. -/
theorem resolve_carry (renames : Renames ρ s s') (wellFormed : s.WellFormed)
    (wellFormed' : s'.WellFormed) {x : Var} (unbound : s.lookup x = none) :
    s'.resolve (.var (ρ x)) = .var (s'.carry ρ x) ∧
      s'.lookup (s'.carry ρ x) = none ∧
      s.resolve (.var (ρ.symm (s'.carry ρ x))) = .var x := by
  -- What `s` makes of the variables solves `s'` when it is read backwards.
  have satisfied : Valuation.Satisfies (s.solution ∘ ρ.symm) s' :=
    (renames.symm s.solution).1 wellFormed.satisfies_solution
  have solves := satisfied.solves_resolve wellFormed'.acyclic (.var (ρ x))
  have value : (Term.var (ρ x)).subst (s.solution ∘ ρ.symm) = .var x := by
    simp [solution, resolve_of_unbound unbound]
  rw [Valuation.Solves, value] at solves
  obtain ⟨y, carried, back⟩ :=
    Term.eq_var_of_subst (Term.eq_var_of_eqv solves)
  have same : s'.carry ρ x = y := by rw [carry, carried]
  have remaining : y ∈ (s'.resolve (.var (ρ x))).vars := by
    rw [carried, Term.vars]
    exact List.mem_singleton_self y
  rw [same]
  exact ⟨carried, unbound_of_mem_resolve wellFormed'.acyclic remaining, back⟩

theorem carry_injOn (renames : Renames ρ s s') (wellFormed : s.WellFormed)
    (wellFormed' : s'.WellFormed) :
    Set.InjOn (s'.carry ρ) {x | s.lookup x = none} := by
  intro x unbound y unbound' same
  have toX := (renames.resolve_carry wellFormed wellFormed' unbound).2.2
  have toY := (renames.resolve_carry wellFormed wellFormed' unbound').2.2
  rw [same, toY, Term.var.injEq] at toX
  exact toX.symm

theorem ncard_unbound_le (renames : Renames ρ s s')
    (wellFormed : s.WellFormed) (wellFormed' : s'.WellFormed) :
    {x | s.lookup x = none}.ncard ≤ {x | s'.lookup x = none}.ncard :=
  Set.ncard_le_ncard_of_injOn (s'.carry ρ)
    (fun _ unbound =>
      (renames.resolve_carry wellFormed wellFormed' unbound).2.1)
    (renames.carry_injOn wellFormed wellFormed')

/-- Substitutions with the same solutions have the same number of mappings. -/
theorem size_eq (renames : Renames ρ s s') (wellFormed : s.WellFormed)
    (wellFormed' : s'.WellFormed) : s.size = s'.size := by
  have unbound : {x | s.lookup x = none}.ncard =
      {x | s'.lookup x = none}.ncard :=
    Nat.le_antisymm (renames.ncard_unbound_le wellFormed wellFormed')
      (renames.symm.ncard_unbound_le wellFormed' wellFormed)
  have all := Set.ncard_add_ncard_compl {x | s.lookup x = none}
  have all' := Set.ncard_add_ncard_compl {x | s'.lookup x = none}
  have bound := ncard_bound wellFormed.functional
  have bound' := ncard_bound wellFormed'.functional
  change _ + {x | s.lookup x ≠ none}.ncard = _ at all
  change _ + {x | s'.lookup x ≠ none}.ncard = _ at all'
  omega

/-- Substitutions with the same solutions resolve terms alike, up to the names
of the variables that are left. -/
theorem resolve_rename (renames : Renames ρ s s') (wellFormed : s.WellFormed)
    (wellFormed' : s'.WellFormed) (term : Term) :
    (s'.resolve (term.rename ρ)).eqv
      ((s.resolve term).rename (s'.carry ρ)) = true := by
  have satisfied : Valuation.Satisfies (s'.solution ∘ ρ) s :=
    (renames s'.solution).1 wellFormed'.satisfies_solution
  have solves := satisfied.solves_resolve wellFormed.acyclic term
  have remaining : (s.resolve term).subst (s'.solution ∘ ρ) =
      (s.resolve term).rename (s'.carry ρ) := by
    apply Term.subst_congr
    intro x member
    have unbound := unbound_of_mem_resolve wellFormed.acyclic member
    exact (renames.resolve_carry wellFormed wellFormed' unbound).1
  rw [Valuation.Solves, remaining, ← Term.subst_rename, subst_solution]
    at solves
  exact solves

/-- Substitutions with the same solutions give the same answers. -/
theorem reify (renames : Renames ρ s s') (wellFormed : s.WellFormed)
    (wellFormed' : s'.WellFormed) (term : Term) :
    (s.reify term).eqv (s'.reify (term.rename ρ)) = true := by
  have apart : Set.InjOn (s'.carry ρ) {x | x ∈ (s.resolve term).vars} :=
    (renames.carry_injOn wellFormed wellFormed').mono fun _ member =>
      unbound_of_mem_resolve wellFormed.acyclic member
  have answers := Term.canonical_eqv
    (renames.resolve_rename wellFormed wellFormed' term)
  rw [Term.canonical_rename apart] at answers
  exact Term.eqv_comm answers

end Renames

end Substitution

end Relational
