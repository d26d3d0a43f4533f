/-
Module: Relational.Proofs.Resolution
Purpose: Resolving a term replaces all of its bound variables, and what has been
  resolved may be resolved again, now or later.
Main exports: Substitution.ResolveReturns,
  Substitution.ResolveReturns.resolve_eq, Substitution.resolveReturns_resolve,
  Substitution.resolve_resolve_of_suffix, Substitution.resolve_absorbs
-/
import Relational.Proofs.Renaming

namespace Relational.Substitution

/-!
A resolved term is what a reader of an answer sees, and it may be kept while the
search goes on.  Bindings that are made later do not spoil it.  A later
substitution has all the older mappings, so what the older one has put in place
of a variable is what the later one would put there, except for the variables
that were still unbound, and these it finds in the resolved term as well.

None of this follows from the shape of the term, as a bound variable may stand
for a term of any size.  The inductions run along the bindings.
-/

/-! ### Resolution as a recursion -/

/-- The recursion that walks from a term, and resolves both components of a
pair, returns the result. -/
inductive ResolveReturns (s : Substitution) : Term → Term → Prop where
  | leaf {term leaf : Term} (walked : s.walk term = leaf)
      (single : ∀ first second, leaf ≠ .pair first second) :
      ResolveReturns s term leaf
  | pair {term first second first' second' : Term}
      (walked : s.walk term = .pair first second)
      (firsts : ResolveReturns s first first')
      (seconds : ResolveReturns s second second') :
      ResolveReturns s term (.pair first' second')

/-- The recursion depends on nothing but where walking ends. -/
theorem ResolveReturns.of_walk {s : Substitution} {term term' result : Term}
    (returns : s.ResolveReturns term' result)
    (same : s.walk term = s.walk term') : s.ResolveReturns term result := by
  cases returns with
  | leaf walked single => exact .leaf (same.trans walked) single
  | pair walked firsts seconds =>
      exact .pair (same.trans walked) firsts seconds

/-- What the recursion returns is the resolved term. -/
theorem ResolveReturns.resolve_eq {s : Substitution} (acyclic : s.Acyclic)
    {term result : Term} (returns : s.ResolveReturns term result) :
    s.resolve term = result := by
  induction returns with
  | @leaf term leaf walked single =>
      rw [← resolve_walk acyclic, walked]
      cases leaf with
      | var x => exact resolve_of_unbound (unbound_of_walk acyclic walked)
      | atom a => exact resolve_atom s a
      | pair first second => exact absurd rfl (single first second)
  | pair walked _ _ onFirsts onSeconds =>
      rw [← resolve_walk acyclic, walked, resolve_pair, onFirsts, onSeconds]

/-- Without a cycle the recursion returns. -/
theorem resolveReturns_resolve {s : Substitution} (acyclic : s.Acyclic)
    (term : Term) : s.ResolveReturns term (s.resolve term) := by
  induction term using acyclic.termInduction with
  | onUnbound x unbound =>
      rw [resolve_of_unbound unbound]
      exact .leaf (walk_of_unbound unbound) (by simp)
  | onBound x next bound onNext =>
      rw [resolve_of_lookup acyclic bound]
      exact onNext.of_walk (walk_of_lookup acyclic bound)
  | onAtom a =>
      rw [resolve_atom]
      exact .leaf rfl (by simp)
  | onPair first second onFirst onSecond =>
      rw [resolve_pair]
      exact .pair rfl onFirst onSecond

/-! ### Resolving once more -/

/-- A variable that is bound keeps its term in every later substitution. -/
theorem lookup_of_suffix {s s' : Substitution} (wellFormed' : s'.WellFormed)
    (suffix : s.mappings <:+ s'.mappings) {x : Var} {term : Term}
    (bound : s.lookup x = some term) : s'.lookup x = some term :=
  lookup_of_mem wellFormed'.functional
    (suffix.subset (mem_mappings_of_lookup bound))

/-- A later substitution makes the same of a term and of what an older one has
made of it. -/
theorem resolve_resolve_of_suffix {s s' : Substitution} (acyclic : s.Acyclic)
    (wellFormed' : s'.WellFormed) (suffix : s.mappings <:+ s'.mappings)
    (term : Term) : s'.resolve (s.resolve term) = s'.resolve term := by
  induction term using acyclic.termInduction with
  | onUnbound x unbound => rw [resolve_of_unbound unbound]
  | onBound x next bound onNext =>
      have bound' := lookup_of_suffix wellFormed' suffix bound
      rw [resolve_of_lookup acyclic bound, onNext,
        resolve_of_lookup wellFormed'.acyclic bound']
  | onAtom a => rw [resolve_atom]
  | onPair first second onFirst onSecond =>
      rw [resolve_pair, resolve_pair, resolve_pair, onFirst, onSecond]

/-- Under every substitution that can be built, the recursion that walks and
goes on with both components returns, and it returns the resolved term.  Nothing
that is left is bound, so resolving again changes nothing, and every
substitution that is reached later makes the same of the resolved term as of the
term itself. -/
theorem resolve_absorbs {s : Substitution} (built : s.Built) (term : Term) :
    (∀ result, s.ResolveReturns term result ↔ s.resolve term = result) ∧
    (∀ x ∈ (s.resolve term).vars, s.lookup x = none) ∧
    s.resolve (s.resolve term) = s.resolve term ∧
    ∀ s', s.Reached s' → s'.resolve (s.resolve term) = s'.resolve term := by
  have acyclic := built.wellFormed.acyclic
  have returns := resolveReturns_resolve acyclic term
  have later : ∀ s', s.Reached s' →
      s'.resolve (s.resolve term) = s'.resolve term := fun s' reached =>
    resolve_resolve_of_suffix acyclic (built.of_reached reached).wellFormed
      (reached.suffix built.wellFormed) term
  exact ⟨fun _ => ⟨(·.resolve_eq acyclic), fun same => same ▸ returns⟩,
    fun _ member => unbound_of_mem_resolve acyclic member,
    later s .refl, later⟩

/-- A variable is bound to a list that holds another one, which is unified with
an atom after the list has been fetched. -/
theorem resolve_absorbs_list :
    ∃ (x y : Var) (a : Atom) (s s' : Substitution), s.Built ∧
      s.ResolveReturns (.var x) (.pair (.var y) .nil) ∧
      s.resolve (.pair (.var y) .nil) = .pair (.var y) .nil ∧
      s.unify (.var y) (.atom a) = .ok s' ∧
      s'.resolve (.pair (.var y) .nil) = s'.resolve (.var x) := by
  let x : Var := ⟨0, by decide⟩
  let y : Var := ⟨1, by decide⟩
  let a : Atom := ⟨.bool true, .root 0⟩
  let s : Substitution := empty.prepend ⟨x, .pair (.var y) .nil⟩
  have built : s.Built :=
    .extend .empty rfl ((extend_eq_ok_iff _ _ _ _).2 ⟨by decide, rfl⟩)
  have resolved : s.resolve (.var x) = .pair (.var y) .nil := by decide
  have unified : s.unify (.var y) (.atom a) = .ok (s.prepend ⟨y, .atom a⟩) := by
    cbv
  obtain ⟨returns, _, again, later⟩ := resolve_absorbs built (.var x)
  rw [resolved] at again later
  exact ⟨x, y, a, s, _, built, (returns _).2 resolved, again, unified,
    later _ (.single (.unify _ _ unified))⟩

end Relational.Substitution
