/-
Module: Relational.Proofs.OccursCheck
Purpose: What the occurs check decides, which bindings it refuses, and where it
  lets a cycle through.
Main exports: Substitution.occurs_iff_mem_resolve,
  Substitution.occurs_iff_of_unbound, Substitution.extend_refuses_cycles,
  Substitution.extend_accepts_cycle
-/
import Relational.Proofs.Footprint
import Relational.Proofs.Termination

namespace Relational.Substitution

/-!
The occurs check is made under the substitution as it is before the binding, and
it looks for the variable where walking ends.  Walking ends at unbound variables
only.  So the check is exact for a variable that is unbound, and it finds nothing
for one that is bound already: its new binding is let through whatever it is, also
where it closes a cycle.

Unification binds unbound variables only, and a program that does the same never
meets a cycle.  Everything here is said of substitutions without a cycle, some of
whose mappings may be out of use because a newer one has taken their place.
-/

/-! ### What the check decides

A resolved term may be far larger than the bindings it is made from, as a term
that is bound once may be met many times.  The check builds none of it.  It walks
along the bindings with a list of what is still pending, and ends as soon as it
has met the variable. -/

/-- Under every substitution that can be built, the occurs check finds exactly
the variables of the resolved term, and so none that is bound.  The loop of the
check and the loop that resolves the term both end, and they agree. -/
theorem occurs_iff_mem_resolve {s : Substitution} (built : s.Built) (x : Var)
    (term : Term) :
    (s.occurs x term = true ↔ x ∈ (s.resolve term).vars) ∧
    ∃ resolved, Ends s.resolveRound (.enter [] term []) resolved ∧
      Ends (s.occursRound x) [term] (decide (x ∈ resolved.vars)) := by
  have acyclic := built.wellFormed.acyclic
  have agree : s.occurs x term = true ↔ x ∈ (s.resolve term).vars :=
    (mem_vars_resolve_iff acyclic).symm
  have found : decide (x ∈ (s.resolve term).vars) = s.occurs x term := by
    simp only [← agree, Bool.decide_eq_true]
  exact ⟨agree, s.resolve term, resolve_ends acyclic term,
    found ▸ occurs_ends acyclic x term⟩

/-- A variable is bound to a list that holds another one, and that one to a
third.  Only the third occurs in the list of the first two. -/
theorem occurs_iff_mem_resolve_chain :
    ∃ (x y z : Var) (s : Substitution), s.Built ∧
      s.lookup x = some (.pair (.var y) .nil) ∧ s.lookup y = some (.var z) ∧
      Ends (s.occursRound z) [.pair (.var x) (.var y)] true ∧
      z ∈ (s.resolve (.pair (.var x) (.var y))).vars ∧
      s.occurs x (.pair (.var x) (.var y)) = false ∧
      x ∉ (s.resolve (.pair (.var x) (.var y))).vars := by
  let x : Var := ⟨0, by decide⟩
  let y : Var := ⟨1, by decide⟩
  let z : Var := ⟨2, by decide⟩
  let s : Substitution :=
    (empty.prepend ⟨x, .pair (.var y) .nil⟩).prepend ⟨y, .var z⟩
  have built : s.Built :=
    .extend
      (.extend .empty rfl ((extend_eq_ok_iff _ _ _ _).2 ⟨by decide, rfl⟩))
      (by decide) ((extend_eq_ok_iff _ _ _ _).2 ⟨by decide, rfl⟩)
  have caught : s.occurs z (.pair (.var x) (.var y)) = true := by decide
  have missed : s.occurs x (.pair (.var x) (.var y)) = false := by decide
  obtain ⟨onThird, resolved, resolving, checking⟩ :=
    occurs_iff_mem_resolve built z (.pair (.var x) (.var y))
  have absent : x ∉ (s.resolve (.pair (.var x) (.var y))).vars := by
    rw [← (occurs_iff_mem_resolve built x _).1, missed]
    exact Bool.false_ne_true
  have same : resolved = s.resolve (.pair (.var x) (.var y)) :=
    resolving.unique (resolve_ends built.wellFormed.acyclic _)
  have member := onThird.1 caught
  rw [same, decide_eq_true member] at checking
  exact ⟨x, y, z, s, built, by decide, by decide, checking, member, missed,
    absent⟩

/-! ### Bindings that are refused -/

/-- For an unbound variable the occurs check finds the bindings that would close
a cycle. -/
theorem occurs_iff_of_unbound {s : Substitution} (acyclic : s.Acyclic) {x : Var}
    (unbound : s.lookup x = none) (term : Term) :
    s.occurs x term = true ↔ ¬ (s.prepend ⟨x, term⟩).Acyclic := by
  rw [occurs_iff acyclic, acyclic_prepend_iff acyclic, not_not]
  constructor
  · rintro ⟨_, reaches⟩
    exact reaches.returns unbound
  · intro returns
    exact ⟨unbound, returns.reaches⟩

/-- For a bound variable the occurs check finds nothing. -/
theorem occurs_eq_false_of_bound {s : Substitution} (acyclic : s.Acyclic)
    {x : Var} (bound : s.lookup x ≠ none) (term : Term) :
    s.occurs x term = false := by
  rw [Bool.eq_false_iff]
  intro caught
  exact bound ((occurs_iff acyclic).1 caught).1

/-- A step leads from a substitution without a cycle to another one. -/
theorem Acyclic.of_step {s s' : Substitution} (acyclic : s.Acyclic)
    (step : s.Step s') : s'.Acyclic := by
  cases step with
  | unify left right unified =>
      exact acyclic.of_grows (grows_of_solve acyclic unified)
  | extend x term unbound extended =>
      exact acyclic.of_binds ⟨x, term, unbound, extended⟩

/-- An unbound variable is refused a term exactly where the binding would close a
cycle, and is bound to it otherwise.  A variable that is bound already is refused
nothing.  As long as unbound variables are bound only, by hand or by unification,
walking and resolution end. -/
theorem extend_refuses_cycles {s : Substitution} (acyclic : s.Acyclic) :
    (∀ x term, s.lookup x = none →
      (s.extend x term = .error (.occurs x term) ↔
        ¬ (s.prepend ⟨x, term⟩).Acyclic) ∧
      (s.extend x term = .ok (s.prepend ⟨x, term⟩) ↔
        (s.prepend ⟨x, term⟩).Acyclic)) ∧
    (∀ x term, s.lookup x ≠ none →
      s.extend x term = .ok (s.prepend ⟨x, term⟩)) ∧
    ∀ s', s.Step s' → s'.Acyclic ∧ ∀ term,
      Ends s'.walkRound term (s'.walk term) ∧
      Ends s'.resolveRound (.enter [] term []) (s'.resolve term) := by
  refine ⟨?_, ?_, ?_⟩
  · intro x term unbound
    have precise := occurs_iff_of_unbound acyclic unbound term
    constructor
    · simpa [extend_eq_error_iff] using precise
    · rw [extend_eq_ok_iff, ← Bool.not_eq_true, precise, not_not]
      exact and_iff_left rfl
  · intro x term bound
    exact (extend_eq_ok_iff _ _ _ _).2
      ⟨occurs_eq_false_of_bound acyclic bound term, rfl⟩
  · intro s' step
    have acyclic' := acyclic.of_step step
    exact ⟨acyclic', fun term =>
      ⟨walk_ends acyclic' term, resolve_ends acyclic' term⟩⟩

/-- Behind a variable that is bound to another one, the other one is refused a
list that holds the first. -/
theorem extend_refuses_cycles_chain :
    ∃ (x y : Var) (s : Substitution), s.Acyclic ∧ s.lookup x = some (.var y) ∧
      s.lookup y = none ∧
      ¬ (s.prepend ⟨y, .pair (.var x) .nil⟩).Acyclic := by
  let x : Var := ⟨0, by decide⟩
  let y : Var := ⟨1, by decide⟩
  let s : Substitution := empty.prepend ⟨x, .var y⟩
  have acyclic : s.Acyclic :=
    wellFormed_empty.acyclic.of_step
      (.extend x (.var y) rfl ((extend_eq_ok_iff _ _ _ _).2 ⟨by decide, rfl⟩))
  have unbound : s.lookup y = none := by decide
  have refused : s.extend y (.pair (.var x) .nil) =
      .error (.occurs y (.pair (.var x) .nil)) :=
    (extend_eq_error_iff _ _ _ _).2 ⟨by decide, rfl⟩
  exact ⟨x, y, s, acyclic, by decide, unbound,
    ((extend_refuses_cycles acyclic).1 y _ unbound).1.1 refused⟩

/-- A variable that is bound already is bound anew to a pair that contains it,
and resolving it never ends. -/
theorem extend_accepts_cycle :
    ∃ (x y : Var) (s s' : Substitution),
      empty.extend x (.var y) = .ok s ∧ s.Acyclic ∧
      s.extend x (.pair (.var x) (.var x)) = .ok s' ∧
      s' = s.prepend ⟨x, .pair (.var x) (.var x)⟩ ∧ ¬ s'.Acyclic ∧
      ∀ result, ¬ Ends s'.resolveRound (.enter [] (.var x) []) result := by
  let x : Var := ⟨0, by decide⟩
  let y : Var := ⟨1, by decide⟩
  let s : Substitution := empty.prepend ⟨x, .var y⟩
  have extended : empty.extend x (.var y) = .ok s :=
    (extend_eq_ok_iff _ _ _ _).2 ⟨by decide, rfl⟩
  have accepted : s.extend x (.pair (.var x) (.var x)) =
      .ok (s.prepend ⟨x, .pair (.var x) (.var x)⟩) :=
    (extend_eq_ok_iff _ _ _ _).2 ⟨by decide, rfl⟩
  have cycle : Relation.TransGen
      (s.prepend ⟨x, .pair (.var x) (.var x)⟩).Refers x x :=
    .single (refers_prepend_iff.2 (Or.inl ⟨rfl, by simp [Term.vars]⟩))
  exact ⟨x, y, s, _, extended,
    wellFormed_empty.acyclic.of_step (.extend x (.var y) rfl extended), accepted,
    rfl, fun acyclic => acyclic x cycle, not_resolve_ends_of_cycle cycle⟩

end Relational.Substitution
