/-
Module: Relational.Proofs.Identity
Purpose: Comparing terms as they lie in memory, with a short cut for what is one
  object, gives the answer of the plain recursion, and is an equivalence that
  resolution respects.
Main exports: Reference, Memory, Memory.Holds, Memory.equalsRound, Term.eqvBy,
  Term.Matches, Memory.equals_ends, Term.equality_structural
-/
import Relational.Proofs.Termination

namespace Relational

/-!
In memory a term is a reference, and a pair holds the references of its two
components.  A pair or an atom may be referred to from many places, of one term
or of several.  The comparison keeps a list of references that are still to be
compared, and stops at the first difference.  Where the two sides are one pair it
does not look inside.

The two short cuts are of different kinds.  One pair holds one term, so looking
inside would give the same answer and only take longer.  One atom equals itself
whatever its value is, and comparing values would not always find that: a value
may differ from itself.  An atom is therefore known by its place as well as by its
value, in memory and in the plain recursion.

How values are compared is left open.  Their equality has to be symmetric and
transitive, and need not be reflexive.
-/

/-! ### Terms in memory -/

/-- Where a term is found.  A variable is its own reference; atoms and pairs are
known by where they were made. -/
inductive Reference where
  | var (x : Var)
  | atom (place : Place)
  | pair (address : Nat)

/-- What is found there: the value of an atom, the components of a pair. -/
structure Memory where
  value : Place → Value
  components : Nat → Reference × Reference

namespace Memory

/-- The term that a reference leads to.  No bound is set on sharing, but a
reference that leads back to itself leads to no term. -/
inductive Holds (memory : Memory) : Reference → Term → Prop where
  | var (x : Var) : Holds memory (.var x) (.var x)
  | atom (place : Place) :
      Holds memory (.atom place) (.atom ⟨memory.value place, place⟩)
  | pair {address : Nat} {first second : Term}
      (firstHeld : Holds memory (memory.components address).1 first)
      (secondHeld : Holds memory (memory.components address).2 second) :
      Holds memory (.pair address) (.pair first second)

/-- A reference leads to one term only. -/
theorem Holds.unique {memory : Memory} {reference : Reference}
    {term term' : Term} (held : memory.Holds reference term)
    (held' : memory.Holds reference term') : term = term' := by
  induction held generalizing term' with
  | var x =>
      cases held'
      rfl
  | atom place =>
      cases held'
      rfl
  | pair _ _ onFirst onSecond =>
      cases held' with
      | pair firstHeld' secondHeld' =>
          rw [onFirst firstHeld', onSecond secondHeld']

/-- Two atoms are equal when they are one atom or their values are equal. -/
def sameAtom (memory : Memory) (same : Value → Value → Bool)
    (place place' : Place) : Bool :=
  decide (place = place') || same (memory.value place) (memory.value place')

/-- A round of the comparison deals with the topmost pending references.  Those of
one pair are passed over, those of two pairs are replaced by the references of
their components. -/
def equalsRound (memory : Memory) (same : Value → Value → Bool) :
    List (Reference × Reference) → Round (List (Reference × Reference)) Bool
  | [] => .done true
  | (.var x, .var y) :: pending =>
    if x = y then .next pending else .done false
  | (.atom place, .atom place') :: pending =>
    if memory.sameAtom same place place' then .next pending else .done false
  | (.pair address, .pair address') :: pending =>
    if address = address' then .next pending
    else
      let (first, second) := memory.components address
      let (first', second') := memory.components address'
      .next ((first, first') :: (second, second') :: pending)
  | _ :: _ => .done false

end Memory

/-! ### The plain recursion -/

/-- Equality of atoms, for a given equality of values. -/
def Atom.eqvBy (same : Value → Value → Bool) (left right : Atom) : Bool :=
  same left.value right.value || decide (left = right)

namespace Term

/-- Equality of terms, for a given equality of values: variables by identifier,
atoms by value or because they are one atom, pairs component by component. -/
def eqvBy (same : Value → Value → Bool) : Term → Term → Bool
  | .var x, .var y => decide (x = y)
  | .atom left, .atom right => left.eqvBy same right
  | .pair first second, .pair first' second' =>
    first.eqvBy same first' && second.eqvBy same second'
  | _, _ => false

/-- The equality that runs compares values by their own equality. -/
theorem eqvBy_eqv (left right : Term) :
    left.eqvBy Value.eqv right = left.eqv right := by
  induction left generalizing right with
  | var x => cases right <;> rfl
  | atom a => cases right <;> rfl
  | pair first second onFirst onSecond =>
      cases right with
      | pair first' second' => simp only [eqvBy, eqv, onFirst, onSecond]
      | _ => rfl

/-- Terms of one shape, with the same variables and with related atoms. -/
inductive Matches (related : Atom → Atom → Prop) : Term → Term → Prop where
  | var (x : Var) : Matches related (.var x) (.var x)
  | atom {a b : Atom} (atoms : related a b) :
      Matches related (.atom a) (.atom b)
  | pair {first second first' second' : Term}
      (firsts : Matches related first first')
      (seconds : Matches related second second') :
      Matches related (.pair first second) (.pair first' second')

/-- Equal terms are those that match up to the equality of atoms. -/
theorem eqvBy_iff_matches {same : Value → Value → Bool} {left right : Term} :
    left.eqvBy same right = true ↔
      Matches (fun a b => a.eqvBy same b = true) left right := by
  constructor
  · intro equal
    induction left generalizing right with
    | var x =>
        cases right with
        | var y =>
            obtain rfl : x = y := of_decide_eq_true equal
            exact .var x
        | _ => cases equal
    | atom a =>
        cases right with
        | atom b => exact .atom equal
        | _ => cases equal
    | pair first second onFirst onSecond =>
        cases right with
        | pair first' second' =>
            rw [eqvBy, Bool.and_eq_true] at equal
            exact .pair (onFirst equal.1) (onSecond equal.2)
        | _ => cases equal
  · intro matching
    induction matching with
    | var x => exact decide_eq_true rfl
    | atom atoms => exact atoms
    | pair _ _ onFirsts onSeconds =>
        simp only [eqvBy, onFirsts, onSeconds, Bool.and_self]

namespace Matches

variable {related : Atom → Atom → Prop}

theorem refl (reflexive : ∀ a, related a a) (term : Term) :
    Matches related term term := by
  induction term with
  | var x => exact .var x
  | atom a => exact .atom (reflexive a)
  | pair _ _ onFirst onSecond => exact .pair onFirst onSecond

theorem symm (symmetric : ∀ {a b}, related a b → related b a)
    {left right : Term} (matching : Matches related left right) :
    Matches related right left := by
  induction matching with
  | var x => exact .var x
  | atom atoms => exact .atom (symmetric atoms)
  | pair _ _ onFirsts onSeconds => exact .pair onFirsts onSeconds

theorem trans (transitive : ∀ {a b c}, related a b → related b c → related a c)
    {left middle right : Term} (onward : Matches related left middle)
    (further : Matches related middle right) : Matches related left right := by
  induction onward generalizing right with
  | var x => exact further
  | atom atoms =>
      cases further with
      | atom atoms' => exact .atom (transitive atoms atoms')
  | pair _ _ onFirsts onSeconds =>
      cases further with
      | pair firsts' seconds' =>
          exact .pair (onFirsts firsts') (onSeconds seconds')

/-- Replacing variables keeps terms matching: a variable stands in the same
places on both sides. -/
theorem subst (reflexive : ∀ a, related a a) (θ : Valuation)
    {left right : Term} (matching : Matches related left right) :
    Matches related (left.subst θ) (right.subst θ) := by
  induction matching with
  | var x => exact .refl reflexive _
  | atom atoms => exact .atom atoms
  | pair _ _ onFirsts onSeconds =>
      rw [subst_pair, subst_pair]
      exact .pair onFirsts onSeconds

end Matches

end Term

/-! ### Laws of equality -/

namespace Atom

variable {same : Value → Value → Bool}

theorem eqvBy_refl (a : Atom) : a.eqvBy same a = true := by
  simp [eqvBy]

theorem eqvBy_symm (symmetric : ∀ v w, same v w = same w v) {a b : Atom}
    (equal : a.eqvBy same b = true) : b.eqvBy same a = true := by
  rw [eqvBy, symmetric, ← equal, eqvBy]
  simp only [eq_comm]

/-- An atom that is in the middle because it is one with its neighbour adds
nothing to the chain. -/
theorem eqvBy_trans
    (transitive : ∀ u v w, same u v = true → same v w = true → same u w = true)
    {a b c : Atom} (onward : a.eqvBy same b = true)
    (further : b.eqvBy same c = true) : a.eqvBy same c = true := by
  simp only [eqvBy, Bool.or_eq_true, decide_eq_true_eq] at onward further ⊢
  rcases onward with byValue | rfl
  · rcases further with byValue' | rfl
    · exact Or.inl (transitive _ _ _ byValue byValue')
    · exact Or.inl byValue
  · exact further

end Atom

namespace Term

variable {same : Value → Value → Bool}

theorem eqvBy_refl (term : Term) : term.eqvBy same term = true :=
  eqvBy_iff_matches.2 (.refl Atom.eqvBy_refl term)

theorem eqvBy_symm (symmetric : ∀ v w, same v w = same w v)
    (left right : Term) : left.eqvBy same right = right.eqvBy same left := by
  have turned : ∀ {left right : Term},
      left.eqvBy same right = true → right.eqvBy same left = true :=
    fun equal => eqvBy_iff_matches.2
      ((eqvBy_iff_matches.1 equal).symm (Atom.eqvBy_symm symmetric))
  exact Bool.eq_iff_iff.2 ⟨turned, turned⟩

theorem eqvBy_trans
    (transitive : ∀ u v w, same u v = true → same v w = true → same u w = true)
    {left middle right : Term} (onward : left.eqvBy same middle = true)
    (further : middle.eqvBy same right = true) :
    left.eqvBy same right = true := by
  rw [eqvBy_iff_matches] at onward further ⊢
  refine Matches.trans ?_ onward further
  exact Atom.eqvBy_trans transitive

end Term

/-- Equal terms are equal once they are resolved. -/
theorem Substitution.resolve_eqvBy {same : Value → Value → Bool}
    (s : Substitution) {left right : Term}
    (equal : left.eqvBy same right = true) :
    (s.resolve left).eqvBy same (s.resolve right) = true := by
  rw [← subst_solution, ← subst_solution]
  exact Term.eqvBy_iff_matches.2
    ((Term.eqvBy_iff_matches.1 equal).subst Atom.eqvBy_refl s.solution)

/-! ### The comparison in memory -/

namespace Memory

variable {memory : Memory} {same : Value → Value → Bool}

/-- Atoms that lie in one memory are one atom exactly if they lie in one place. -/
theorem sameAtom_eq (place place' : Place) :
    memory.sameAtom same place place' =
      Atom.eqvBy same ⟨memory.value place, place⟩
        ⟨memory.value place', place'⟩ := by
  have oneAtom : (⟨memory.value place, place⟩ : Atom) =
      ⟨memory.value place', place'⟩ ↔ place = place' := by
    constructor
    · exact congrArg Atom.origin
    · rintro rfl
      rfl
  simp only [sameAtom, Atom.eqvBy, oneAtom, Bool.or_comm]

/-- The topmost references add their own answer to the one that the comparison
ends with below them. -/
theorem equals_ends_onto {reference reference' : Reference} {left right : Term}
    (held : memory.Holds reference left) (held' : memory.Holds reference' right)
    {pending : List (Reference × Reference)} {answer : Bool}
    (below : Ends (memory.equalsRound same) pending answer) :
    Ends (memory.equalsRound same) ((reference, reference') :: pending)
      (left.eqvBy same right && answer) := by
  induction held generalizing reference' right pending answer with
  | var x =>
      cases held' with
      | var y =>
          by_cases one : x = y
          · simp only [Term.eqvBy, one, decide_true, Bool.true_and]
            exact .next (by simp [equalsRound]) below
          · simp only [Term.eqvBy, one, decide_false, Bool.false_and]
            exact .done (by simp [equalsRound, one])
      | atom place' => exact .done rfl
      | pair _ _ => exact .done rfl
  | atom place =>
      cases held' with
      | var y => exact .done rfl
      | atom place' =>
          simp only [Term.eqvBy, ← sameAtom_eq]
          cases equal : memory.sameAtom same place place' with
          | false => exact .done (by simp [equalsRound, equal])
          | true => exact .next (by simp [equalsRound, equal]) below
      | pair _ _ => exact .done rfl
  | @pair address first second firstHeld secondHeld onFirst onSecond =>
      cases held' with
      | var y => exact .done rfl
      | atom place' => exact .done rfl
      | @pair address' first' second' firstHeld' secondHeld' =>
          by_cases one : address = address'
          · -- One pair is passed over, and holds one term on both sides.
            subst one
            have sameTerm := (Holds.pair firstHeld secondHeld).unique
              (.pair firstHeld' secondHeld')
            rw [sameTerm, Term.eqvBy_refl, Bool.true_and]
            exact .next (by simp [equalsRound]) below
          · rw [Term.eqvBy, Bool.and_assoc]
            exact .next (by simp [equalsRound, one])
              (onFirst firstHeld' (onSecond secondHeld' below))

/-- The comparison ends, with the answer of the plain recursion. -/
theorem equals_ends {reference reference' : Reference} {left right : Term}
    (held : memory.Holds reference left)
    (held' : memory.Holds reference' right) :
    Ends (memory.equalsRound same) [(reference, reference')]
      (left.eqvBy same right) := by
  have nothing : Ends (memory.equalsRound same) [] true := .done rfl
  simpa only [Bool.and_true] using equals_ends_onto held held' nothing

end Memory

/-- Wherever two terms lie in memory, and whatever they share, comparing them with
the short cuts gives the answer of the plain recursion.  Equality of terms is
reflexive, symmetric and transitive, although equality of values need not be
reflexive, and resolving equal terms gives equal terms.  The equality that runs
is the one for the values' own equality. -/
theorem Term.equality_structural {same : Value → Value → Bool}
    (symmetric : ∀ v w, same v w = same w v)
    (transitive : ∀ u v w, same u v = true → same v w = true →
      same u w = true) :
    (∀ (memory : Memory) (reference reference' : Reference) (a b : Term),
      memory.Holds reference a → memory.Holds reference' b →
        Ends (memory.equalsRound same) [(reference, reference')]
          (a.eqvBy same b)) ∧
    (∀ a : Term, a.eqvBy same a = true) ∧
    (∀ a b : Term, a.eqvBy same b = b.eqvBy same a) ∧
    (∀ a b c : Term, a.eqvBy same b = true → b.eqvBy same c = true →
      a.eqvBy same c = true) ∧
    (∀ (s : Substitution) (a b : Term), a.eqvBy same b = true →
      (s.resolve a).eqvBy same (s.resolve b) = true) ∧
    ∀ a b : Term, a.equals b = a.eqvBy Value.eqv b := by
  refine ⟨fun _ _ _ _ _ held held' => Memory.equals_ends held held',
    eqvBy_refl, eqvBy_symm symmetric,
    fun _ _ _ => eqvBy_trans transitive,
    fun s _ _ => s.resolve_eqvBy, ?_⟩
  intro a b
  rw [equals_eq_eqv, eqvBy_eqv]

/-- Two pairs hold one atom twice that is not a number, and a third pair holds it
together with another one.  The first two are equal, the third is not, and a
variable may stand for the atom. -/
theorem Term.equality_structural_nan :
    ∃ (memory : Memory) (nan : Atom) (x : Var) (s : Substitution),
      nan.value.eqv nan.value = false ∧
      memory.Holds (.pair 0) (.pair (.atom nan) (.atom nan)) ∧
      memory.Holds (.pair 1) (.pair (.atom nan) (.atom nan)) ∧
      Ends (memory.equalsRound Value.eqv) [(.pair 0, .pair 1)] true ∧
      Ends (memory.equalsRound Value.eqv) [(.pair 0, .pair 2)] false ∧
      (Term.pair (.var x) (.atom nan)).eqvBy Value.eqv
        (.pair (.var x) (.atom nan)) = true ∧
      (s.resolve (.pair (.var x) (.atom nan))).eqvBy Value.eqv
        (s.resolve (.pair (.var x) (.atom nan))) = true ∧
      s.resolve (.var x) = .atom nan := by
  let number : Value := .float .double 0x7ff8000000000000
  let nan : Atom := ⟨number, .root 0⟩
  let other : Atom := ⟨number, .root 1⟩
  let memory : Memory :=
    ⟨fun _ => number, fun address =>
      (.atom (.root 0), .atom (.root (if address = 2 then 1 else 0)))⟩
  let x : Var := ⟨0, by decide⟩
  let s : Substitution := .prepend .empty ⟨x, .atom nan⟩
  have first : memory.Holds (.pair 0) (.pair (.atom nan) (.atom nan)) :=
    .pair (.atom (.root 0)) (.atom (.root 0))
  have second : memory.Holds (.pair 1) (.pair (.atom nan) (.atom nan)) :=
    .pair (.atom (.root 0)) (.atom (.root 0))
  have third : memory.Holds (.pair 2) (.pair (.atom nan) (.atom other)) :=
    .pair (.atom (.root 0)) (.atom (.root 1))
  obtain ⟨comparing, reflexive, _, _, congruent, _⟩ :=
    equality_structural Value.eqv_symm fun _ _ _ => Value.eqv_trans
  have equal := comparing memory _ _ _ _ first second
  have different := comparing memory _ _ _ _ first third
  rw [reflexive] at equal
  have apart : (Term.pair (.atom nan) (.atom nan)).eqvBy Value.eqv
      (.pair (.atom nan) (.atom other)) = false := by decide
  rw [apart] at different
  exact ⟨memory, nan, x, s, by decide, first, second, equal, different,
    reflexive _, congruent s _ _ (reflexive _), by decide⟩

end Relational
