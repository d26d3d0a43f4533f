/-
Module: Relational.Proofs.RecursiveUnification
Purpose: Unification as a recursion on two terms, and why working through a
  stack of equations comes to the same.
Main exports: Substitution.UnifyReturns, Substitution.UnifyReturnsInTurn,
  Substitution.UnifyReturns.solve_eq,
  Substitution.UnifyReturnsInTurn.of_reduce,
  Substitution.unifyReturnsInTurn_solve, Substitution.unifyReturns_iff
-/
import Relational.Proofs.Unification

namespace Relational.Substitution

/-!
Unification is best understood as a recursion: two pairs are unified by unifying
their first components, and then their second components under the bindings
which that has produced.  A stack of equations does this without nesting calls.
Second components wait on the stack while the substitution grows, and a stack
stands for the calls that are still to be made, one after the other.

The recursion counts nothing.  Under bindings with a cycle it need not return,
and so it is given by what it returns.  Without a cycle it returns, and what it
returns is what the stack produces.
-/

/-! ### The recursion -/

/-- A call for two terms under a substitution returns the outcome.  Both terms
are walked first. -/
inductive UnifyReturns : Substitution → Term → Term →
    Except Failure Substitution → Prop where
  /-- One unbound variable on both sides. -/
  | sameVar {s : Substitution} {left right : Term} {x : Var}
      (leftWalked : s.walk left = .var x)
      (rightWalked : s.walk right = .var x) :
      UnifyReturns s left right (.ok s)
  /-- An unbound variable on the left is bound to the right side. -/
  | bindLeft {s : Substitution} {left right term : Term} {x : Var}
      (leftWalked : s.walk left = .var x) (rightWalked : s.walk right = term)
      (different : term ≠ .var x) :
      UnifyReturns s left right (s.extend x term)
  /-- Otherwise, one on the right is bound to the left side. -/
  | bindRight {s : Substitution} {left right term : Term} {y : Var}
      (leftWalked : s.walk left = term) (rightWalked : s.walk right = .var y)
      (rigid : ∀ x, term ≠ .var x) :
      UnifyReturns s left right (s.extend y term)
  /-- The second components of two pairs are unified under the bindings that
  the first components have produced. -/
  | pairs {s s' : Substitution} {left right : Term}
      {first second first' second' : Term}
      {outcome : Except Failure Substitution}
      (leftWalked : s.walk left = .pair first second)
      (rightWalked : s.walk right = .pair first' second')
      (firsts : UnifyReturns s first first' (.ok s'))
      (seconds : UnifyReturns s' second second' outcome) :
      UnifyReturns s left right outcome
  /-- A failure of the first components is passed on. -/
  | pairsFail {s : Substitution} {left right : Term}
      {first second first' second' : Term} {failure : Failure}
      (leftWalked : s.walk left = .pair first second)
      (rightWalked : s.walk right = .pair first' second')
      (firsts : UnifyReturns s first first' (.error failure)) :
      UnifyReturns s left right (.error failure)
  /-- Two equal atoms. -/
  | sameAtom {s : Substitution} {left right : Term} {a b : Atom}
      (leftWalked : s.walk left = .atom a)
      (rightWalked : s.walk right = .atom b) (equal : a.eqv b = true) :
      UnifyReturns s left right (.ok s)
  /-- Anything else is a mismatch of the walked terms. -/
  | clash {s : Substitution} {left right : Term}
      (apart : (s.walk left).Clash (s.walk right)) :
      UnifyReturns s left right
        (.error (.mismatch (s.walk left) (s.walk right)))

/-- The calls that a stack of equations stands for return the outcome.  Each is
made under the bindings that the ones before it have produced, and the first
failure ends them. -/
inductive UnifyReturnsInTurn : Substitution → List Equation →
    Except Failure Substitution → Prop where
  | nil {s : Substitution} : UnifyReturnsInTurn s [] (.ok s)
  | cons {s s' : Substitution} {equation : Equation} {rest : List Equation}
      {outcome : Except Failure Substitution}
      (call : s.UnifyReturns equation.left equation.right (.ok s'))
      (calls : UnifyReturnsInTurn s' rest outcome) :
      UnifyReturnsInTurn s (equation :: rest) outcome
  | fail {s : Substitution} {equation : Equation} {rest : List Equation}
      {failure : Failure}
      (call : s.UnifyReturns equation.left equation.right (.error failure)) :
      UnifyReturnsInTurn s (equation :: rest) (.error failure)

/-! ### What the recursion returns is what the stack produces -/

theorem solve_singleton (s : Substitution) (equation : Equation) :
    s.solve [equation] =
      (s.reduce equation).bind fun (simpler, s') => s'.solve simpler := by
  rw [solve]
  split
  · rename_i failed
    rw [failed]
    rfl
  · rename_i reduced
    rw [reduced, List.append_nil]
    rfl

/-- An extension leaves nothing to be done. -/
theorem solve_extend (s : Substitution) (x : Var) (term : Term) :
    (((s.extend x term).map fun s' => (([] : List Equation), s')).bind
      fun (simpler, s') => s'.solve simpler) = s.extend x term := by
  cases s.extend x term with
  | error failure => rfl
  | ok s' => simp [Except.map, Except.bind, solve]

/-- An equation of two pairs comes to the equation of the first components, and
then that of the second components. -/
theorem solve_pairs {s : Substitution} (acyclic : s.Acyclic)
    {equation : Equation} (funded : equation.Funded s)
    {first second first' second' : Term}
    (leftWalked : s.walk equation.left = .pair first second)
    (rightWalked : s.walk equation.right = .pair first' second') :
    ∃ allowance, (Equation.mk first first' allowance).Funded s ∧
      (Equation.mk second second' allowance).Funded s ∧
      s.solve [equation] = (s.solve [⟨first, first', allowance⟩]).bind
        fun s' => s'.solve [⟨second, second', allowance⟩] := by
  obtain ⟨allowance, passedOn, _⟩ := funded.passedOn acyclic leftWalked
  have reduced :=
    reduce_eq_of_reduction (.split leftWalked rightWalked passedOn)
  have each := funded_of_reduce acyclic funded reduced
  refine ⟨allowance, each _ (by simp), each _ (by simp), ?_⟩
  rw [solve_singleton, reduced, ← solve_append]
  rfl

/-- Working through one equation has the outcome that a call for it returns. -/
theorem UnifyReturns.solve_eq {s : Substitution} {left right : Term}
    {outcome : Except Failure Substitution}
    (returns : s.UnifyReturns left right outcome) (acyclic : s.Acyclic)
    {allowance : Nat} (funded : (Equation.mk left right allowance).Funded s) :
    s.solve [⟨left, right, allowance⟩] = outcome := by
  induction returns generalizing allowance with
  | sameVar leftWalked rightWalked =>
      rw [solve_singleton,
        reduce_eq_of_reduction (.sameVar leftWalked rightWalked)]
      simp [Except.bind, solve]
  | bindLeft leftWalked rightWalked different =>
      rw [solve_singleton,
        reduce_eq_of_reduction (.bindLeft leftWalked rightWalked different),
        solve_extend]
  | bindRight leftWalked rightWalked rigid =>
      rw [solve_singleton,
        reduce_eq_of_reduction (.bindRight leftWalked rightWalked rigid),
        solve_extend]
  | pairs leftWalked rightWalked _ _ onFirsts onSeconds =>
      obtain ⟨passedOn, fundedFirst, fundedSecond, split⟩ :=
        solve_pairs acyclic funded leftWalked rightWalked
      have solved := onFirsts acyclic fundedFirst
      have grows := grows_of_solve acyclic solved
      rw [split, solved]
      exact onSeconds (acyclic.of_grows grows) (fundedSecond.of_grows grows)
  | pairsFail leftWalked rightWalked _ onFirsts =>
      obtain ⟨passedOn, fundedFirst, _, split⟩ :=
        solve_pairs acyclic funded leftWalked rightWalked
      rw [split, onFirsts acyclic fundedFirst]
      rfl
  | sameAtom leftWalked rightWalked equal =>
      rw [solve_singleton,
        reduce_eq_of_reduction (.sameAtom leftWalked rightWalked equal)]
      simp [Except.bind, solve]
  | clash apart =>
      rw [solve_singleton, reduce_eq_of_reduction (.clash apart)]
      rfl

/-! ### The recursion returns -/

/-- Where a step fails, a call returns the failure. -/
theorem unifyReturns_of_reduce {s : Substitution} (acyclic : s.Acyclic)
    {equation : Equation} (funded : equation.Funded s) {failure : Failure}
    (reduced : s.reduce equation = .error failure) :
    s.UnifyReturns equation.left equation.right (.error failure) := by
  have step := s.reduction_reduce equation
  generalize s.reduce equation = found at reduced step
  cases step with
  | sameVar left right => cases reduced
  | bindLeft left right different =>
      rw [← extend_of_map_error reduced]
      exact .bindLeft left right different
  | bindRight left right rigid =>
      rw [← extend_of_map_error reduced]
      exact .bindRight left right rigid
  | split left right passedOn => cases reduced
  | exhausted left right passedOn =>
      obtain ⟨allowance, passedOn', _⟩ := funded.passedOn acyclic left
      simp [passedOn] at passedOn'
  | sameAtom left right equal => cases reduced
  | clash apart =>
      cases reduced
      exact .clash apart

/-- The calls for what a step leaves, and for what was waiting already, are the
calls that were to be made before the step. -/
theorem UnifyReturnsInTurn.of_reduce {s s' : Substitution}
    {equation : Equation} {simpler rest : List Equation}
    {outcome : Except Failure Substitution}
    (calls : s'.UnifyReturnsInTurn (simpler ++ rest) outcome)
    (reduced : s.reduce equation = .ok (simpler, s')) :
    s.UnifyReturnsInTurn (equation :: rest) outcome := by
  have step := s.reduction_reduce equation
  generalize s.reduce equation = found at reduced step
  cases step with
  | sameVar left right =>
      cases reduced
      exact .cons (.sameVar left right) calls
  | bindLeft left right different =>
      obtain ⟨rfl, extended, _⟩ := satisfies_of_extend reduced
      exact .cons (extended ▸ .bindLeft left right different) calls
  | bindRight left right rigid =>
      obtain ⟨rfl, extended, _⟩ := satisfies_of_extend reduced
      exact .cons (extended ▸ .bindRight left right rigid) calls
  | split left right passedOn =>
      cases reduced
      -- The calls on top are those for the components.  Both of them belong to
      -- the call for the pairs, and so does a failure of either.
      cases calls with
      | cons firsts calls =>
          cases calls with
          | cons seconds calls =>
              exact .cons (.pairs left right firsts seconds) calls
          | fail seconds => exact .fail (.pairs left right firsts seconds)
      | fail firsts => exact .fail (.pairsFail left right firsts)
  | exhausted left right passedOn => cases reduced
  | sameAtom left right equal =>
      cases reduced
      exact .cons (.sameAtom left right equal) calls
  | clash apart => cases reduced

/-- The calls for a stack return what the stack produces. -/
theorem unifyReturnsInTurn_solve {s : Substitution} (acyclic : s.Acyclic)
    {stack : List Equation} (funded : ∀ e ∈ stack, e.Funded s) :
    s.UnifyReturnsInTurn stack (s.solve stack) := by
  fun_induction solve s stack with
  | case1 s => exact .nil
  | case2 s equation rest failure reduced =>
      exact .fail (unifyReturns_of_reduce acyclic (funded equation (by simp))
        reduced)
  | case3 s equation rest simpler grown reduced onSimpler =>
      have grows := grows_of_reduce acyclic reduced
      have funded' := funded_append_of_reduce acyclic funded reduced
      exact (onSimpler (acyclic.of_grows grows) funded').of_reduce reduced

/-- Under bindings without a cycle a call returns what unification produces. -/
theorem unifyReturns_unify {s : Substitution} (acyclic : s.Acyclic)
    (left right : Term) :
    s.UnifyReturns left right (s.unify left right) := by
  have calls := unifyReturnsInTurn_solve acyclic (s.funded_unify left right)
  rw [← unify] at calls
  generalize s.unify left right = outcome at calls
  cases calls with
  | cons call calls =>
      cases calls with
      | nil => exact call
  | fail call => exact call

/-- Under every substitution that can be built, the recursion returns, and what
it returns is the outcome of unification: the same mappings in the same order,
or the same failure with the same terms. -/
theorem unifyReturns_iff {s : Substitution} (built : s.Built)
    (left right : Term) (outcome : Except Failure Substitution) :
    s.UnifyReturns left right outcome ↔ s.unify left right = outcome := by
  have acyclic := built.wellFormed.acyclic
  constructor
  · intro returns
    exact returns.solve_eq acyclic (s.funded_start left right)
  · rintro rfl
    exact unifyReturns_unify acyclic left right

/-- The first components bind a variable, and the second components fail because
of it: they fetch a list that holds the variable. -/
theorem unifyReturns_iff_late :
    ∃ (x y : Var) (a b : Atom) (s : Substitution), s.Built ∧
      s.lookup x = some (.pair (.var y) .nil) ∧
      s.UnifyReturns (.pair (.var y) (.var x))
        (.pair (.atom a) (.pair (.atom b) .nil))
        (.error (.mismatch (.atom a) (.atom b))) := by
  let x : Var := ⟨0, by decide⟩
  let y : Var := ⟨1, by decide⟩
  let a : Atom := ⟨.bool true, .root 0⟩
  let b : Atom := ⟨.bool false, .root 0⟩
  let s : Substitution := empty.prepend ⟨x, .pair (.var y) .nil⟩
  have built : s.Built :=
    .extend .empty rfl ((extend_eq_ok_iff _ _ _ _).2 ⟨by decide, rfl⟩)
  have failed : s.unify (.pair (.var y) (.var x))
      (.pair (.atom a) (.pair (.atom b) .nil)) =
      .error (.mismatch (.atom a) (.atom b)) := by
    cbv
  exact ⟨x, y, a, b, s, built, by decide,
    (unifyReturns_iff built _ _ _).2 failed⟩

end Relational.Substitution
