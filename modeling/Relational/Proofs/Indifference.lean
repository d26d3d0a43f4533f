/-
Module: Relational.Proofs.Indifference
Purpose: A search does not depend on where its terms are built and on how its
  branch was reached.
Main exports: Branch.Follows, Correspondence.similar, Goal.Indifferent,
  Goal.indifferent, Goal.exists_sight_elsewhere
-/
import Relational.Proofs.Correspondence

namespace Relational

/-!
A goal can be applied on its own or as a part of another goal.  It is then built
at another place, and the branch that it is applied to remembers other choices.
Unless a value differs from itself, none of this is seen: the searches show
equal states and suspensions at the same positions, and they run out of
variables together.
-/

/-- The branches are in equal states, and have handed out variables up to the
counter at least. -/
structure Branch.Follows (counter : Nat) (b b' : Branch) : Prop where
  states : b.state.Similar b'.state
  advanced : counter ≤ b.state.counter

/-- Equal data correspond, unless a value differs from itself. -/
def Correspondence.similar : Correspondence where
  admits := Expr.isPlain
  terms term term' := term.eqv term' = true
  substitutions := Substitution.Similar
  start := 0
  terms_var _ := Term.eqv_refl _
  terms_build plain _ _ scopes := Expr.build_similar plain scopes
  unify similar lefts rights _ unified := similar.unify lefts rights unified
  unify_back similar lefts rights _ unified := by
    obtain ⟨t, unified, _⟩ := similar.symm.unify (Term.eqv_comm lefts)
      (Term.eqv_comm rights) unified
    exact ⟨t, unified⟩

namespace Goal

variable {program : Program}

/-- Wherever the goal is built and however its branch was reached, its searches
are alike until so many suspensions have been forced, if so many variables are
left. -/
def Indifferent (program : Program) (ticks left allowance : Nat)
    (goal : Goal) : Prop :=
  ∀ {scope scope' : Scope} (place place' : Place) (b b' : Branch),
    goal.isPlain = true → scope.Similar scope' →
    b.state.Similar b'.state → Var.capacity - b.state.counter ≤ left →
    Traced.Alike program.rules program.rules
      (Branch.Follows b.state.counter) ticks
      ((goal.buildWithin program allowance scope place).search program b)
      ((goal.buildWithin program allowance scope' place').search program b')

/-- A search depends neither on the place where its goal is built nor on the
choices that led to its branch. -/
theorem indifferent (plainProgram : program.isPlain = true)
    (ticks left allowance : Nat) (goal : Goal) :
    Indifferent program ticks left allowance goal := by
  intro scope scope' place place' b b' plain scopes states supply
  have started : Correspondence.similar.States b.state b'.state :=
    ⟨states.substitution, states.counter, Nat.zero_le _⟩
  obtain ⟨fatal, values⟩ := Correspondence.similar.simulates plainProgram ticks
    left allowance goal place place' b b' plain scopes started supply
  refine ⟨fatal, values.mono ?_ (Nat.le_refl _)⟩
  intro c c' branches
  exact ⟨⟨branches.states.substitution, branches.states.counter⟩,
    branches.advanced⟩

/-- What a search shows at a position it shows there wherever its goal is built
and however its branch was reached. -/
theorem exists_sight_elsewhere (plainProgram : program.isPlain = true)
    {goal : Goal} (plain : goal.isPlain = true) (scope : Scope)
    (place place' : Place) {b b' : Branch} (same : b.state = b'.state)
    {n : Nat} {seen : Sight Branch}
    (shown : ((goal.build program scope place).apply program b).value.sight
      program.rules n = some seen) :
    ∃ seen', ((goal.build program scope place').apply program b').value.sight
        program.rules n = some seen' ∧
      Sight.Related (fun c c' => c.state.eqv c'.state = true) seen seen' := by
  have states : b.state.Similar b'.state := same ▸ .refl _
  have alike := (indifferent plainProgram n _ program.allowance goal place
    place' b b' plain (.refl scope) states (Nat.le_refl _)).apply
  exact (alike.values.mono
    (fun follows => State.eqv_iff_similar.2 follows.states)
    (Nat.le_refl _)).exists_sight (Nat.le_refl _) shown

end Goal

end Relational
