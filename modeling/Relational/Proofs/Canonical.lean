/-
Module: Relational.Proofs.Canonical
Purpose: Answers are canonical: they tell terms apart up to the names of
  variables, and no further.
Main exports: distinctBefore, distinctBefore_bijOn, distinctBefore_lt_iff,
  Substitution.foldl_nameNext_empty, Term.canonical_eq_subst, Term.hasName,
  Term.Variant, Term.exists_rename_of_canonical, Substitution.reify_canonical
-/
import Mathlib.Data.Fintype.EquivFin
import Mathlib.Data.Fintype.Sum
import Relational.Proofs.Renaming

namespace Relational

/-!
The canonical form of a term replaces its variables by numbers, from left to
right as they first occur.  The number of a variable is the number of different
variables that occur before it does.  Numbers are handed out by the length of a
list that grows on the way, and they are put in by another traversal; both see
the variables in one order.

Two terms with one canonical form differ in the names of their variables only.
What turns one into the other is found by following a variable to its number and
back to a variable of the other term.  This fails if a term has numbers among
its atoms already, since these cannot be told from the numbers of variables.
-/

/-! ### Numbers of variables -/

/-- How many different variables a list holds in front of a variable. -/
def distinctBefore (vars : List Var) (x : Var) : Nat :=
  (vars.take (vars.idxOf x)).toFinset.card

/-- A variable that is met counts for everything behind it. -/
theorem distinctBefore_lt_card {vars : List Var} {x : Var} (member : x ∈ vars)
    {n : Nat} (before : vars.idxOf x < n) :
    distinctBefore vars x < (vars.take n).toFinset.card := by
  have inside : x ∈ vars.take n := (List.mem_take_iff_idxOf_lt member).2 before
  have outside : x ∉ vars.take (vars.idxOf x) := fun earlier =>
    Nat.lt_irrefl _ ((List.mem_take_iff_idxOf_lt member).1 earlier)
  refine Finset.card_lt_card ⟨?_, fun back => outside ?_⟩
  · intro y earlier
    rw [List.mem_toFinset] at earlier ⊢
    exact List.take_subset_take_left vars (Nat.le_of_lt before) earlier
  · exact List.mem_toFinset.1 (back (List.mem_toFinset.2 inside))

/-- Variables are numbered in the order in which they first occur. -/
theorem distinctBefore_lt_iff {vars : List Var} {x y : Var} (first : x ∈ vars)
    (second : y ∈ vars) :
    distinctBefore vars x < distinctBefore vars y ↔
      vars.idxOf x < vars.idxOf y := by
  refine ⟨fun less => ?_, distinctBefore_lt_card first⟩
  rcases Nat.lt_trichotomy (vars.idxOf x) (vars.idxOf y) with
    before | same | behind
  · exact before
  · rw [(List.idxOf_inj first).1 same] at less
    exact absurd less (Nat.lt_irrefl _)
  · exact absurd less (Nat.lt_asymm (distinctBefore_lt_card second behind))

theorem distinctBefore_injOn (vars : List Var) :
    Set.InjOn (distinctBefore vars) {x | x ∈ vars} := by
  intro x first y second same
  rw [← List.idxOf_inj first]
  apply Nat.le_antisymm
  · exact Nat.not_lt.1 fun before => Nat.ne_of_gt
      ((distinctBefore_lt_iff second first).2 before) same
  · exact Nat.not_lt.1 fun before => Nat.ne_of_lt
      ((distinctBefore_lt_iff first second).2 before) same

/-- The different variables of a list receive the numbers below their number. -/
theorem distinctBefore_bijOn (vars : List Var) :
    Set.BijOn (distinctBefore vars) {x | x ∈ vars}
      (Set.Iio vars.toFinset.card) := by
  have below : Set.MapsTo (distinctBefore vars) {x | x ∈ vars}
      (Set.Iio vars.toFinset.card) := by
    intro x member
    have bound := distinctBefore_lt_card member
      (List.idxOf_lt_length_of_mem member)
    rwa [List.take_length] at bound
  refine ⟨below, distinctBefore_injOn vars, ?_⟩
  have all := Finset.surjOn_of_injOn_of_card_le (s := vars.toFinset)
    (t := Finset.range vars.toFinset.card) (distinctBefore vars)
    (by simpa using below) (by simpa using distinctBefore_injOn vars)
    (by simp)
  simpa using all

theorem distinctBefore_append {vars : List Var} {x : Var} (member : x ∈ vars)
    (more : List Var) :
    distinctBefore (vars ++ more) x = distinctBefore vars x := by
  rw [distinctBefore, List.idxOf_append_of_mem member,
    List.take_append_of_le_length List.idxOf_le_length, ← distinctBefore]

theorem distinctBefore_append_self {vars : List Var} {x : Var}
    (absent : x ∉ vars) :
    distinctBefore (vars ++ [x]) x = vars.toFinset.card := by
  simp [distinctBefore, List.idxOf_append_of_notMem absent]

/-! ### Names -/

namespace Substitution

/-- Naming gives as many names as there are different variables, and to each of
them its number. -/
theorem foldl_nameNext_empty (vars : List Var) :
    (vars.foldl nameNext empty).size = vars.toFinset.card ∧
    ∀ x, (vars.foldl nameNext empty).lookup x =
      if x ∈ vars then some (.reified (distinctBefore vars x)) else none := by
  induction vars using List.reverseRecOn with
  | nil => exact ⟨rfl, fun x => by simp [lookup, lookup.go, empty]⟩
  | append_singleton vars y onVars =>
      obtain ⟨sizes, lookups⟩ := onVars
      rw [List.foldl_append, List.foldl_cons, List.foldl_nil, nameNext,
        lookups y]
      by_cases known : y ∈ vars
      · have same : (vars ++ [y]).toFinset = vars.toFinset := by
          simp [known]
        simp only [known, if_true]
        refine ⟨by rw [sizes, same], fun x => ?_⟩
        by_cases member : x ∈ vars
        · simp [lookups x, member, distinctBefore_append member]
        · have different : x ≠ y := fun equal => member (equal ▸ known)
          simp [lookups x, member, different]
      · have more : (vars ++ [y]).toFinset.card = vars.toFinset.card + 1 := by
          simp [known]
        simp only [known, if_false]
        refine ⟨by rw [size_prepend, sizes, more], fun x => ?_⟩
        rw [lookup_prepend, sizes, lookups x]
        by_cases same : y = x
        · subst same
          simp [distinctBefore_append_self known]
        · by_cases member : x ∈ vars
          · simp [same, member, distinctBefore_append member]
          · simp [same, member, Ne.symm same]

end Substitution

namespace Term

theorem lookup_names {term : Term} {x : Var} (member : x ∈ term.vars) :
    term.names.lookup x = some (.reified (distinctBefore term.vars x)) := by
  rw [names_eq_foldl, (Substitution.foldl_nameNext_empty term.vars).2,
    if_pos member]

/-- The canonical form puts its number in place of every variable. -/
theorem canonical_eq_subst (term : Term) :
    term.canonical =
      term.subst fun x => .reified (distinctBefore term.vars x) := by
  apply subst_congr
  intro x member
  rw [lookup_names member, Option.getD_some]

theorem vars_subst (θ : Valuation) (term : Term) :
    (term.subst θ).vars = term.vars.flatMap fun x => (θ x).vars := by
  induction term with
  | var x => simp [vars]
  | atom a => rfl
  | pair first second onFirst onSecond => simp [vars, onFirst, onSecond]

theorem vars_canonical (term : Term) : term.canonical.vars = [] := by
  rw [canonical_eq_subst, vars_subst]
  exact List.flatMap_eq_nil_iff.2 fun _ _ => rfl

/-! ### Terms with one canonical form -/

/-- True when an atom of the term is the name of an unbound variable. -/
def hasName : Term → Bool
  | .var _ => false
  | .atom ⟨.reified _, _⟩ => true
  | .atom _ => false
  | .pair first second => first.hasName || second.hasName

/-- The terms have the same shape and equal atoms, and variables that stand in
the same place are related. -/
inductive Variant (related : Var → Var → Prop) : Term → Term → Prop where
  | var {x y : Var} (vars : related x y) : Variant related (.var x) (.var y)
  | atom {a b : Atom} (equal : a.eqv b = true) :
      Variant related (.atom a) (.atom b)
  | pair {first second first' second' : Term}
      (firsts : Variant related first first')
      (seconds : Variant related second second') :
      Variant related (.pair first second) (.pair first' second')

/-- An atom that equals the name of a variable is one. -/
theorem hasName_of_eqv {a : Atom} {number : Nat}
    (equal : (reified number).eqv (.atom a) = true) :
    (Term.atom a).hasName = true := by
  obtain ⟨value, origin⟩ := a
  cases value <;> simp [reified, Atom.eqv, Value.eqv, hasName] at equal ⊢

theorem reified_eqv_iff {m n : Nat} :
    (reified m).eqv (reified n) = true ↔ m = n := by
  simp [reified, Atom.eqv, Value.eqv]

/-- Terms that are equal once numbers have been put in for their variables have
equal numbers in the same places. -/
theorem variant_of_numbers {f g : Var → Nat} {term term' : Term}
    (nameless : term.hasName = false) (nameless' : term'.hasName = false)
    (equal : (term.subst fun x => .reified (f x)).eqv
      (term'.subst fun y => .reified (g y)) = true) :
    term.Variant (fun x y => f x = g y) term' := by
  induction term generalizing term' with
  | var x =>
      cases term' with
      | var y => exact .var (reified_eqv_iff.1 equal)
      | atom b => simp [hasName_of_eqv equal] at nameless'
      | pair first' second' => simp [reified, eqv] at equal
  | atom a =>
      cases term' with
      | var y => simp [hasName_of_eqv (eqv_comm equal)] at nameless
      | atom b => exact .atom equal
      | pair first' second' => simp [eqv] at equal
  | pair first second onFirst onSecond =>
      cases term' with
      | var y => simp [reified, eqv] at equal
      | atom b => simp [eqv] at equal
      | pair first' second' =>
          rw [hasName, Bool.or_eq_false_iff] at nameless nameless'
          rw [subst_pair, subst_pair, eqv_pair, Bool.and_eq_true] at equal
          exact .pair (onFirst nameless.1 nameless'.1 equal.1)
            (onSecond nameless.2 nameless'.2 equal.2)

namespace Variant

variable {related : Var → Var → Prop} {term term' : Term}

/-- A variable stands in the place of a related one. -/
theorem exists_partner (variant : term.Variant related term') {x : Var}
    (member : x ∈ term.vars) : ∃ y ∈ term'.vars, related x y := by
  induction variant with
  | @var z y vars =>
      obtain rfl : x = z := by simpa [Term.vars] using member
      exact ⟨y, by simp [Term.vars], vars⟩
  | atom _ => simp [Term.vars] at member
  | pair _ _ onFirsts onSeconds =>
      rw [Term.vars, List.mem_append] at member
      rcases member with inFirst | inSecond
      · obtain ⟨y, inside, vars⟩ := onFirsts inFirst
        exact ⟨y, by simp [Term.vars, inside], vars⟩
      · obtain ⟨y, inside, vars⟩ := onSeconds inSecond
        exact ⟨y, by simp [Term.vars, inside], vars⟩

/-- A renaming that follows the relation turns a term into its variant. -/
theorem rename_eqv (variant : term.Variant related term') {ρ : Var → Var}
    (follows : ∀ x ∈ term.vars, ∀ y ∈ term'.vars, related x y → ρ x = y) :
    (term.rename ρ).eqv term' = true := by
  induction variant with
  | @var x y vars =>
      rw [rename_var, follows x (by simp [Term.vars]) y (by simp [Term.vars])
        vars]
      exact eqv_refl _
  | atom equal => exact equal
  | pair _ _ onFirsts onSeconds =>
      rw [rename_pair, eqv_pair, Bool.and_eq_true]
      constructor
      · exact onFirsts fun x member y member' =>
          follows x (by simp [Term.vars, member]) y
            (by simp [Term.vars, member'])
      · exact onSeconds fun x member y member' =>
          follows x (by simp [Term.vars, member]) y
            (by simp [Term.vars, member'])

end Variant

end Term

/-- A renaming that keeps some variables apart can be continued to one that
keeps all of them apart. -/
theorem Var.exists_perm_of_injOn {f : Var → Var} {among : Set Var}
    (apart : Set.InjOn f among) :
    ∃ ρ : Var ≃ Var, ∀ x ∈ among, ρ x = f x := by
  have := Fintype.ofFinite Var
  obtain ⟨ρ, continues⟩ := Set.MapsTo.exists_equiv_extend_of_card_eq
    (t := Finset.univ) Finset.card_univ.symm (fun x _ => by simp) apart
  exact ⟨ρ.trans (Equiv.subtypeUnivEquiv Finset.mem_univ), continues⟩

namespace Term

/-- Terms with one canonical form are turned into each other by a renaming. -/
theorem exists_rename_of_canonical {term term' : Term}
    (nameless : term.hasName = false) (nameless' : term'.hasName = false)
    (equal : term.canonical.eqv term'.canonical = true) :
    ∃ ρ : Var → Var, Function.Injective ρ ∧
      (term.rename ρ).eqv term' = true := by
  rw [canonical_eq_subst, canonical_eq_subst] at equal
  have variant := variant_of_numbers nameless nameless' equal
  -- From a variable to its number, and from there to the variable of the other
  -- term that has this number.
  choose! f inside numbers using fun x member =>
    variant.exists_partner (x := x) member
  have apart : Set.InjOn f {x | x ∈ term.vars} := by
    intro x member y member' same
    apply distinctBefore_injOn term.vars member member'
    rw [numbers x member, numbers y member', same]
  obtain ⟨ρ, continues⟩ := Var.exists_perm_of_injOn apart
  refine ⟨ρ, ρ.injective, variant.rename_eqv fun x member y member' same => ?_⟩
  rw [continues x member]
  exact distinctBefore_injOn term'.vars (inside x member) member'
    ((numbers x member).symm.trans same)

end Term

/-- An answer holds no variables.  It is the resolved term with its variables
numbered from left to right as they first occur, so different variables receive
different numbers, and no number is left out.  Two answers are equal exactly
where a renaming of variables turns one resolved term into the other. -/
theorem Substitution.reify_canonical (s s' : Substitution)
    (term term' : Term) :
    (s.reify term).vars = [] ∧
    (s.reify term = (s.resolve term).subst (fun x =>
        .reified (distinctBefore (s.resolve term).vars x)) ∧
      Set.BijOn (distinctBefore (s.resolve term).vars)
        {x | x ∈ (s.resolve term).vars}
        (Set.Iio (s.resolve term).vars.toFinset.card) ∧
      ∀ x ∈ (s.resolve term).vars, ∀ y ∈ (s.resolve term).vars,
        distinctBefore (s.resolve term).vars x <
            distinctBefore (s.resolve term).vars y ↔
          (s.resolve term).vars.idxOf x < (s.resolve term).vars.idxOf y) ∧
    ((s.resolve term).hasName = false → (s'.resolve term').hasName = false →
      ((s.reify term).eqv (s'.reify term') = true ↔
        ∃ ρ : Var → Var, Function.Injective ρ ∧
          ((s.resolve term).rename ρ).eqv (s'.resolve term') = true)) := by
  refine ⟨(s.resolve term).vars_canonical,
    ⟨(s.resolve term).canonical_eq_subst, distinctBefore_bijOn _,
      fun x first y second => distinctBefore_lt_iff first second⟩, ?_⟩
  intro nameless nameless'
  constructor
  · exact Term.exists_rename_of_canonical nameless nameless'
  · rintro ⟨ρ, injective, equal⟩
    have canonical := Term.canonical_eqv equal
    rw [Term.canonical_rename injective.injOn] at canonical
    exact canonical

/-- Three places, the first and the last with the same variable, and three such
places that are put together from other variables by way of a binding.  Both
have one answer, so a renaming relates them. -/
theorem Substitution.reify_canonical_shared :
    ∃ (x y x' y' z : Var) (s : Substitution),
      s.reify (.pair (.var x') (.var z)) =
        .pair (.reified 0) (.pair (.reified 1) (.reified 0)) ∧
      s.resolve (.pair (.var x') (.var z)) =
        .pair (.var x') (.pair (.var y') (.var x')) ∧
      ∃ ρ : Var → Var, Function.Injective ρ ∧
        ((Term.pair (.var x) (.pair (.var y) (.var x))).rename ρ).eqv
          (.pair (.var x') (.pair (.var y') (.var x'))) = true := by
  let x : Var := ⟨0, by decide⟩
  let y : Var := ⟨1, by decide⟩
  let z : Var := ⟨3, by decide⟩
  let x' : Var := ⟨4, by decide⟩
  let y' : Var := ⟨5, by decide⟩
  let s : Substitution := empty.prepend ⟨z, .pair (.var y') (.var x')⟩
  have canonical := reify_canonical empty s
    (.pair (.var x) (.pair (.var y) (.var x))) (.pair (.var x') (.var z))
  have renamed := (canonical.2.2 (by decide) (by decide)).1 (by decide)
  exact ⟨x, y, x', y', z, s, by decide, by decide, renamed⟩

end Relational
