/-
Module: Relational.Proofs.Growth
Purpose: What holds of every substitution that is reached by unifying terms and
  by binding unbound variables.
Main exports: Substitution.Step, Substitution.Reached,
  Substitution.Reached.suffix, Substitution.ncard_bound,
  Substitution.reached_invariant, Substitution.resolve_eqv_of_unify
-/
import Relational.Proofs.Unification

namespace Relational.Substitution

open Relation

/-!
A program holds on to the substitutions it has made and derives others from
them.  Each call that succeeds puts mappings in front of those that were there
and touches none of them, so what was reached before is still there, at the end
of what is reached later.

One call is one step.  Everything below is proved of one binding of an unbound
variable, then of a step, which makes any number of such bindings, and then of
any number of steps.
-/

/-- One call that succeeds: two terms are unified, or a variable is bound that
is unbound at that moment. -/
inductive Step (s s' : Substitution) : Prop where
  | unify (left right : Term) (unified : s.unify left right = .ok s')
  | extend (x : Var) (term : Term) (unbound : s.lookup x = none)
      (extended : s.extend x term = .ok s')

/-- Any number of calls that succeed lead from one substitution to the
other. -/
def Reached : Substitution → Substitution → Prop := ReflTransGen Step

theorem Built.of_reached {s s' : Substitution} (built : s.Built)
    (reached : s.Reached s') : s'.Built := by
  induction reached with
  | refl => exact built
  | tail _ step before =>
      cases step with
      | unify left right unified => exact .unify before unified
      | extend x term unbound extended => exact .extend before unbound extended

/-! ### Older mappings stay where they are -/

theorem Binds.suffix {s s' : Substitution} (binds : s.Binds s') :
    s.mappings <:+ s'.mappings := by
  rcases binds with ⟨x, term, _, extended⟩
  obtain ⟨_, rfl⟩ := (extend_eq_ok_iff _ _ _ _).1 extended
  exact List.suffix_cons _ _

theorem Grows.suffix {s s' : Substitution} (grows : s.Grows s') :
    s.mappings <:+ s'.mappings := by
  induction grows with
  | refl => exact List.suffix_refl _
  | tail _ binds before => exact before.trans binds.suffix

/-- A step binds unbound variables one after the other. -/
theorem Step.grows {s s' : Substitution} (wellFormed : s.WellFormed)
    (step : s.Step s') : s.Grows s' := by
  cases step with
  | unify left right unified =>
      exact grows_of_solve wellFormed.acyclic unified
  | extend x term unbound extended =>
      exact .single ⟨x, term, unbound, extended⟩

theorem Reached.grows {s s' : Substitution} (wellFormed : s.WellFormed)
    (reached : s.Reached s') : s.Grows s' := by
  induction reached with
  | refl => exact .refl
  | tail _ step before =>
      exact before.trans (step.grows (wellFormed.of_grows before))

theorem Reached.suffix {s s' : Substitution} (wellFormed : s.WellFormed)
    (reached : s.Reached s') : s.mappings <:+ s'.mappings :=
  (reached.grows wellFormed).suffix

/-! ### Mappings and bound variables -/

/-- Where variables are bound at most once, a substitution has as many mappings
as it binds variables. -/
theorem ncard_bound {s : Substitution}
    (functional : (s.mappings.map Mapping.var).Nodup) :
    {x | s.lookup x ≠ none}.ncard = s.size := by
  have listed : {x | s.lookup x ≠ none} =
      ↑(s.mappings.map Mapping.var).toFinset := by
    ext x
    simp [lookup_eq_none_iff]
  rw [listed, Set.ncard_coe_finset, List.toFinset_card_of_nodup functional,
    List.length_map, s.size_eq]

/-- Where variables are bound at most once, what a variable refers to can be
read off any mapping of it. -/
theorem refers_iff_exists_mem {s : Substitution}
    (functional : (s.mappings.map Mapping.var).Nodup) {x y : Var} :
    s.Refers x y ↔
      ∃ mapping ∈ s.mappings, mapping.var = x ∧ y ∈ mapping.term.vars := by
  constructor
  · rintro ⟨term, bound, among⟩
    exact ⟨⟨x, term⟩, mem_mappings_of_lookup bound, rfl, among⟩
  · rintro ⟨mapping, member, rfl, among⟩
    exact ⟨mapping.term, lookup_of_mem functional member, among⟩

/-- Every substitution that is reached from the empty one binds each variable at
most once, no variable leads back to itself through the mappings, the size is
the number of the mappings and of the variables they bind, and the mappings of
every substitution that was reached before are a suffix of its own. -/
theorem reached_invariant {s s' : Substitution} (earlier : empty.Reached s)
    (later : s.Reached s') :
    (s'.mappings.map Mapping.var).Nodup ∧
    (∀ x, ¬ TransGen (fun y z => ∃ mapping ∈ s'.mappings,
      mapping.var = y ∧ z ∈ mapping.term.vars) x x) ∧
    (s'.size = s'.mappings.length ∧
      s'.size = {x | s'.lookup x ≠ none}.ncard) ∧
    s.mappings <:+ s'.mappings := by
  have built : s.Built := Built.empty.of_reached earlier
  have wellFormed := (built.of_reached later).wellFormed
  refine ⟨wellFormed.functional, ?_,
    ⟨s'.size_eq, (ncard_bound wellFormed.functional).symm⟩,
    later.suffix built.wellFormed⟩
  intro x cycle
  have refers (y z : Var) :=
    (refers_iff_exists_mem wellFormed.functional (x := y) (y := z)).2
  exact wellFormed.acyclic x (TransGen.mono refers _ _ cycle)

/-- A variable is bound to a list that holds another one, and then that other
one to the empty list. -/
theorem reached_invariant_list :
    ∃ (x y : Var) (s s' : Substitution), x ≠ y ∧
      empty.unify (.var x) (.pair (.var y) .nil) = .ok s ∧
      s.extend y .nil = .ok s' ∧
      (s'.mappings.map Mapping.var).Nodup ∧
      (∀ z, ¬ TransGen (fun z z' => ∃ mapping ∈ s'.mappings,
        mapping.var = z ∧ z' ∈ mapping.term.vars) z z) ∧
      (s'.size = s'.mappings.length ∧
        s'.size = {z | s'.lookup z ≠ none}.ncard) ∧
      s.mappings <:+ s'.mappings := by
  let x : Var := ⟨0, by decide⟩
  let y : Var := ⟨1, by decide⟩
  have unified : empty.unify (.var x) (.pair (.var y) .nil) =
      .ok (empty.prepend ⟨x, .pair (.var y) .nil⟩) := by
    cbv
  have unbound : (empty.prepend ⟨x, .pair (.var y) .nil⟩).lookup y = none :=
    by decide
  have extended := (extend_eq_ok_iff
    (empty.prepend ⟨x, .pair (.var y) .nil⟩) _ y .nil).2 ⟨rfl, rfl⟩
  exact ⟨x, y, _, _, by decide, unified, extended,
    reached_invariant (.single (.unify _ _ unified))
      (.single (.extend y .nil unbound extended))⟩

/-! ### Equal terms stay equal

What has been made equal is made equal by every valuation that satisfies the
result, and a later substitution is satisfied by fewer valuations only.  What
the variables of the later one stand for is one of them. -/

/-- Whatever satisfies a substitution satisfies those that it has grown from. -/
theorem satisfies_of_suffix {s s' : Substitution}
    (suffix : s.mappings <:+ s'.mappings) {θ : Valuation}
    (satisfies : θ.Satisfies s') : θ.Satisfies s :=
  fun mapping member => satisfies mapping (suffix.subset member)

/-- Terms that have been unified are equal once they are resolved, and they stay
equal in every substitution that is reached later.  Equality is that of terms, so
an atom whose value differs from itself still equals its copies. -/
theorem resolve_eqv_of_unify {s s' s'' : Substitution} (built : s.Built)
    {left right : Term} (unified : s.unify left right = .ok s')
    (later : s'.Reached s'') :
    (s''.resolve left).eqv (s''.resolve right) = true := by
  have built' : s'.Built := .unify built unified
  have satisfied : s''.solution.Satisfies s' :=
    satisfies_of_suffix (later.suffix built'.wellFormed)
      (built'.of_reached later).wellFormed.satisfies_solution
  have solves : s''.solution.Solves left right := by
    simpa using ((satisfies_of_solve unified s''.solution).1 satisfied).2
  rw [Valuation.Solves, subst_solution, subst_solution] at solves
  exact solves

/-- Two variables are unified with an atom that is not a number, the second one
through the first, and later a third one with the second. -/
theorem resolve_eqv_of_unify_nan :
    ∃ (nan : Atom) (x y z : Var) (s s' : Substitution),
      nan.value.eqv nan.value = false ∧
      empty.unify (.pair (.var x) (.var y)) (.pair (.atom nan) (.var x)) =
        .ok s ∧
      s.unify (.var z) (.var y) = .ok s' ∧
      (s'.resolve (.pair (.var x) (.var y))).eqv
        (s'.resolve (.pair (.atom nan) (.var x))) = true := by
  let nan : Atom := ⟨.float .double 0x7ff8000000000000, .root 0⟩
  let x : Var := ⟨0, by decide⟩
  let y : Var := ⟨1, by decide⟩
  let z : Var := ⟨2, by decide⟩
  have unified :
      empty.unify (.pair (.var x) (.var y)) (.pair (.atom nan) (.var x)) =
        .ok ((empty.prepend ⟨x, .atom nan⟩).prepend ⟨y, .atom nan⟩) := by
    cbv
  have later : ((empty.prepend ⟨x, .atom nan⟩).prepend ⟨y, .atom nan⟩).unify
      (.var z) (.var y) = .ok (((empty.prepend ⟨x, .atom nan⟩).prepend
        ⟨y, .atom nan⟩).prepend ⟨z, .atom nan⟩) := by
    cbv
  exact ⟨nan, x, y, z, _, _, by decide, unified, later,
    resolve_eqv_of_unify .empty unified (.single (.unify _ _ later))⟩

end Relational.Substitution
