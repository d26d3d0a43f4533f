/-
Module: Relational.Proofs.EquationOrder
Purpose: The answer to a set of equations depends neither on their order nor on
  which way round they are written.
Main exports: Substitution.unifyAll, Valuation.SolvesEach,
  Substitution.satisfies_of_unifyAll, Substitution.exists_unifyAll_iff,
  Substitution.unifyAll_reordered
-/
import Mathlib.Data.List.Permutation
import Relational.Proofs.Renaming

namespace Relational

/-!
Equations are solved one after the other, each under the bindings that the ones
before it have made.  Which bindings are made depends on the order.  What does
not depend on it is which valuations satisfy them all, and this decides both
whether there is a result and what is seen of it.
-/

/-- The equation of two terms, with all the allowance there is. -/
def Equation.ofSides (sides : Term × Term) : Equation :=
  ⟨sides.1, sides.2, Var.capacity⟩

namespace Substitution

/-- Makes the two sides of each equation equal, one equation after the
other. -/
def unifyAll (s : Substitution) (equations : List (Term × Term)) :
    Except Failure Substitution :=
  equations.foldlM (fun s equation => s.unify equation.1 equation.2) s

/-- Solving equations one after the other is working through all of them on one
stack. -/
theorem unifyAll_eq_solve (s : Substitution)
    (equations : List (Term × Term)) :
    s.unifyAll equations = s.solve (equations.map .ofSides) := by
  induction equations generalizing s with
  | nil =>
      rw [List.map_nil, solve]
      rfl
  | cons equation rest onRest =>
      have top := s.solve_append [.ofSides equation] (rest.map .ofSides)
      rw [← funext onRest] at top
      exact top.symm

theorem unifyAll_append_eq_ok_iff {s s' : Substitution}
    {earlier later : List (Term × Term)} :
    s.unifyAll (earlier ++ later) = .ok s' ↔
      ∃ between, s.unifyAll earlier = .ok between ∧
        between.unifyAll later = .ok s' := by
  have parts : s.unifyAll (earlier ++ later) =
      (s.unifyAll earlier).bind fun between => between.unifyAll later :=
    List.foldlM_append ..
  rw [parts]
  cases s.unifyAll earlier with
  | error failure => simp [Except.bind]
  | ok between => simp [Except.bind]

theorem unifyAll_singleton (s : Substitution) (left right : Term) :
    s.unifyAll [(left, right)] = s.unify left right := by
  rw [unifyAll_eq_solve]
  rfl

theorem WellFormed.of_unifyAll {s s' : Substitution}
    (wellFormed : s.WellFormed) {equations : List (Term × Term)}
    (unified : s.unifyAll equations = .ok s') : s'.WellFormed := by
  rw [unifyAll_eq_solve] at unified
  exact wellFormed.of_grows (grows_of_solve wellFormed.acyclic unified)

end Substitution

/-- The valuation makes the two sides of each equation equal. -/
def Valuation.SolvesEach (θ : Valuation) (equations : List (Term × Term)) :
    Prop :=
  ∀ equation ∈ equations, θ.Solves equation.1 equation.2

theorem Valuation.solvesEach_append_iff {θ : Valuation}
    {earlier later : List (Term × Term)} :
    θ.SolvesEach (earlier ++ later) ↔
      θ.SolvesEach earlier ∧ θ.SolvesEach later :=
  List.forall_mem_append

theorem Valuation.solvesAll_map_iff {θ : Valuation}
    {equations : List (Term × Term)} :
    θ.SolvesAll (equations.map .ofSides) ↔ θ.SolvesEach equations :=
  List.forall_mem_map

namespace Substitution

/-- The result of solving equations is satisfied by the valuations that satisfy
the start and solve the equations. -/
theorem satisfies_of_unifyAll {s s' : Substitution}
    {equations : List (Term × Term)}
    (unified : s.unifyAll equations = .ok s') (θ : Valuation) :
    θ.Satisfies s' ↔ θ.Satisfies s ∧ θ.SolvesEach equations := by
  rw [unifyAll_eq_solve] at unified
  rw [satisfies_of_solve unified θ, Valuation.solvesAll_map_iff]

/-- Equations can be solved one after the other if some valuation satisfies the
start and solves them all. -/
theorem exists_unifyAll_iff {s : Substitution} (wellFormed : s.WellFormed)
    (equations : List (Term × Term)) :
    (∃ s', s.unifyAll equations = .ok s') ↔
      ∃ θ : Valuation, θ.Satisfies s ∧ θ.SolvesEach equations := by
  constructor
  · rintro ⟨s', unified⟩
    exact ⟨s'.solution, (satisfies_of_unifyAll unified _).1
      (wellFormed.of_unifyAll unified).satisfies_solution⟩
  · rintro ⟨θ, satisfied, solves⟩
    rw [unifyAll_eq_solve]
    rw [← Valuation.solvesAll_map_iff] at solves
    cases outcome : s.solve (equations.map .ofSides) with
    | ok s' => exact ⟨s', rfl⟩
    | error failure =>
        refine absurd solves
          (unsolvable_of_solve wellFormed ?_ outcome satisfied)
        intro equation member
        obtain ⟨sides, _, rfl⟩ := List.mem_map.mp member
        exact s.funded_start sides.1 sides.2

/-- The same equations in another order, each one way round or the other. -/
def Reordered (equations equations' : List (Term × Term)) : Prop :=
  ∃ turned, List.Forall₂ (fun equation equation' =>
      equation' = equation ∨ equation' = equation.swap) equations turned ∧
    turned.Perm equations'

theorem Reordered.solvesEach_iff {equations equations' : List (Term × Term)}
    (reordered : Reordered equations equations') (θ : Valuation) :
    θ.SolvesEach equations' ↔ θ.SolvesEach equations := by
  rcases reordered with ⟨turned, turns, perm⟩
  have sameMembers : θ.SolvesEach equations' ↔ θ.SolvesEach turned :=
    forall_congr' fun equation => by rw [perm.mem_iff]
  rw [sameMembers]
  clear perm sameMembers
  induction turns with
  | nil => rfl
  | @cons equation equation' rest rest' turn _ onRest =>
      have sameEquation : θ.Solves equation'.1 equation'.2 ↔
          θ.Solves equation.1 equation.2 := by
        rcases turn with rfl | rfl
        · rfl
        · exact ⟨.symm, .symm⟩
      unfold Valuation.SolvesEach at onRest ⊢
      rw [List.forall_mem_cons, List.forall_mem_cons]
      exact and_congr sameEquation onRest

/-- Equations can be solved in every order and either way round or in none, and
the results have the same size and give equal answers to every query. -/
theorem unifyAll_reordered {s : Substitution} (built : s.Built)
    {equations equations' : List (Term × Term)}
    (reordered : Reordered equations equations') :
    ((∃ s₁, s.unifyAll equations = .ok s₁) ↔
      ∃ s₂, s.unifyAll equations' = .ok s₂) ∧
    ∀ s₁ s₂, s.unifyAll equations = .ok s₁ →
      s.unifyAll equations' = .ok s₂ →
        s₁.size = s₂.size ∧
        ∀ term : Term, (s₁.reify term).eqv (s₂.reify term) = true := by
  have wellFormed := built.wellFormed
  constructor
  · rw [exists_unifyAll_iff wellFormed, exists_unifyAll_iff wellFormed]
    simp only [reordered.solvesEach_iff]
  · intro s₁ s₂ unified₁ unified₂
    have renames : Renames (Equiv.refl Var) s₁ s₂ := by
      intro θ
      rw [satisfies_of_unifyAll unified₂, reordered.solvesEach_iff]
      exact (satisfies_of_unifyAll unified₁ θ).symm
    have wellFormed₁ := wellFormed.of_unifyAll unified₁
    have wellFormed₂ := wellFormed.of_unifyAll unified₂
    refine ⟨renames.size_eq wellFormed₁ wellFormed₂, fun term => ?_⟩
    have unchanged : term.rename (Equiv.refl Var) = term :=
      Term.rename_eq_self fun _ _ => rfl
    have answers := renames.reify wellFormed₁ wellFormed₂ term
    rwa [unchanged] at answers

/-- Two variables are made equal and one of them is the empty list.  In one
order a variable is bound to the other one, in the other order to the list. -/
theorem unifyAll_reordered_swap :
    ∃ (x y : Var) (s₁ s₂ : Substitution),
      empty.unifyAll [(.var x, .var y), (.var y, .nil)] = .ok s₁ ∧
      empty.unifyAll [(.nil, .var y), (.var x, .var y)] = .ok s₂ ∧
      s₁ ≠ s₂ ∧ s₁.size = s₂.size ∧
      ∀ term : Term, (s₁.reify term).eqv (s₂.reify term) = true := by
  let x : Var := ⟨0, by decide⟩
  let y : Var := ⟨1, by decide⟩
  have unified₁ : empty.unifyAll [(.var x, .var y), (.var y, .nil)] =
      .ok ((empty.prepend ⟨x, .var y⟩).prepend ⟨y, .nil⟩) := by
    rw [unifyAll_eq_solve]
    change empty.solve [⟨.var x, .var y, Var.capacity⟩,
      ⟨.var y, .nil, Var.capacity⟩] = _
    cbv
  have unified₂ : empty.unifyAll [(.nil, .var y), (.var x, .var y)] =
      .ok ((empty.prepend ⟨y, .nil⟩).prepend ⟨x, .nil⟩) := by
    rw [unifyAll_eq_solve]
    change empty.solve [⟨.nil, .var y, Var.capacity⟩,
      ⟨.var x, .var y, Var.capacity⟩] = _
    cbv
  have reordered : Reordered [(.var x, .var y), (.var y, .nil)]
      [(.nil, .var y), (.var x, .var y)] :=
    ⟨[(.var x, .var y), (.nil, .var y)],
      .cons (Or.inl rfl) (.cons (Or.inr rfl) .nil), .swap ..⟩
  exact ⟨x, y, _, _, unified₁, unified₂, by decide,
    (unifyAll_reordered .empty reordered).2 _ _ unified₁ unified₂⟩

end Substitution

end Relational
