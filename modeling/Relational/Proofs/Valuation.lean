/-
Module: Relational.Proofs.Valuation
Purpose: Valuations of variables by terms, and the solutions that unification
  keeps.
Main exports: Valuation, Valuation.Satisfies, Valuation.Solves,
  Substitution.Reduction, Substitution.satisfies_of_solve
-/
import Relational.Substitution.Unify

namespace Relational

/-!
A valuation gives a finite term to every variable and extends to terms by
substitution.  It satisfies a substitution when it makes the two sides of
every mapping equal, where equality is that of terms: atoms are equal by value
or because they are one atom.

Unification is judged by the valuations that it keeps.  One step of it looks
at the two walked sides of an equation and does one of a few things;
`Substitution.Reduction` lists them once and for all, and everything that is
proved about unification is proved from this list.
-/

/-- A term for every variable. -/
abbrev Valuation := Var → Term

namespace Term

@[simp] theorem eqv_var (x y : Var) :
    (Term.var x).eqv (.var y) = decide (x = y) := rfl

@[simp] theorem eqv_atom (a b : Atom) :
    (Term.atom a).eqv (.atom b) = a.eqv b := rfl

@[simp] theorem eqv_pair (first second first' second' : Term) :
    (Term.pair first second).eqv (.pair first' second') =
      (first.eqv first' && second.eqv second') := rfl

theorem eqv_comm {left right : Term} (equal : left.eqv right = true) :
    right.eqv left = true := by
  rw [eqv_symm]
  exact equal

/-- The value of a term depends on the values of its variables only. -/
theorem subst_congr {θ θ' : Valuation} {term : Term}
    (agree : ∀ x ∈ term.vars, θ x = θ' x) :
    term.subst θ = term.subst θ' := by
  induction term with
  | var x => exact agree x (by simp [vars])
  | atom a => rfl
  | pair first second onFirst onSecond =>
      have firsts : first.subst θ = first.subst θ' :=
        onFirst fun x member => agree x (by simp [vars, member])
      have seconds : second.subst θ = second.subst θ' :=
        onSecond fun x member => agree x (by simp [vars, member])
      simp [firsts, seconds]

/-- Equal terms have equal values. -/
theorem subst_eqv_of_eqv (θ : Valuation) {left right : Term}
    (equal : left.eqv right = true) :
    (left.subst θ).eqv (right.subst θ) = true := by
  induction left generalizing right with
  | var x =>
      cases right with
      | var y =>
          simp only [eqv_var, decide_eq_true_eq] at equal
          rw [equal]
          exact eqv_refl _
      | _ => simp [eqv] at equal
  | atom a =>
      cases right with
      | atom b => exact equal
      | _ => simp [eqv] at equal
  | pair first second onFirst onSecond =>
      cases right with
      | pair first' second' =>
          simp only [eqv_pair, Bool.and_eq_true] at equal
          simp [onFirst equal.1, onSecond equal.2]
      | _ => simp [eqv] at equal

end Term

/-- What a variable is bound to stands in one of the mappings. -/
theorem Substitution.mem_mappings_of_lookup {s : Substitution} {x : Var}
    {term : Term} (bound : s.lookup x = some term) :
    ⟨x, term⟩ ∈ s.mappings := by
  have search : ∀ mappings : List Mapping,
      lookup.go x mappings = some term → ⟨x, term⟩ ∈ mappings := by
    intro mappings found
    induction mappings with
    | nil => simp [lookup.go] at found
    | cons mapping older onOlder =>
        rw [lookup.go] at found
        split at found
        · rename_i same
          simp only [Option.some.injEq] at found
          subst same found
          exact List.mem_cons_self
        · exact List.mem_cons_of_mem _ (onOlder found)
  exact search s.mappings bound

namespace Valuation

/-- The valuation makes the two terms equal. -/
def Solves (θ : Valuation) (left right : Term) : Prop :=
  (left.subst θ).eqv (right.subst θ) = true

/-- The valuation makes the two sides of every mapping equal. -/
def Satisfies (θ : Valuation) (s : Substitution) : Prop :=
  ∀ mapping ∈ s.mappings, θ.Solves (.var mapping.var) mapping.term

/-- The valuation solves every equation of a stack. -/
def SolvesAll (θ : Valuation) (stack : List Equation) : Prop :=
  ∀ equation ∈ stack, θ.Solves equation.left equation.right

theorem Solves.symm {θ : Valuation} {left right : Term}
    (solves : θ.Solves left right) : θ.Solves right left :=
  Term.eqv_comm solves

theorem Solves.trans {θ : Valuation} {left middle right : Term}
    (leftMiddle : θ.Solves left middle) (middleRight : θ.Solves middle right) :
    θ.Solves left right :=
  Term.eqv_trans leftMiddle middleRight

theorem solves_refl (θ : Valuation) (term : Term) : θ.Solves term term :=
  Term.eqv_refl _

@[simp] theorem solves_pair_iff {θ : Valuation}
    {first second first' second' : Term} :
    θ.Solves (.pair first second) (.pair first' second') ↔
      θ.Solves first first' ∧ θ.Solves second second' := by
  simp [Solves]

@[simp] theorem satisfies_empty (θ : Valuation) :
    θ.Satisfies Substitution.empty := by
  intro mapping member
  simp [Substitution.empty] at member

@[simp] theorem satisfies_prepend_iff {θ : Valuation} {s : Substitution}
    {mapping : Mapping} :
    θ.Satisfies (s.prepend mapping) ↔
      θ.Solves (.var mapping.var) mapping.term ∧ θ.Satisfies s := by
  simp [Satisfies, Substitution.mappings_prepend]

@[simp] theorem solvesAll_nil (θ : Valuation) : θ.SolvesAll [] := by
  simp [SolvesAll]

@[simp] theorem solvesAll_cons_iff {θ : Valuation} {equation : Equation}
    {rest : List Equation} :
    θ.SolvesAll (equation :: rest) ↔
      θ.Solves equation.left equation.right ∧ θ.SolvesAll rest := by
  simp [SolvesAll]

@[simp] theorem solvesAll_append_iff {θ : Valuation}
    {above below : List Equation} :
    θ.SolvesAll (above ++ below) ↔ θ.SolvesAll above ∧ θ.SolvesAll below := by
  simp only [SolvesAll, List.mem_append]
  constructor
  · intro solves
    exact ⟨fun equation member => solves equation (Or.inl member),
      fun equation member => solves equation (Or.inr member)⟩
  · rintro ⟨onAbove, onBelow⟩ equation (member | member)
    · exact onAbove equation member
    · exact onBelow equation member

/-- A satisfied substitution makes a variable equal to what it is bound to. -/
theorem Satisfies.lookup {θ : Valuation} {s : Substitution}
    (satisfies : θ.Satisfies s) {x : Var} {term : Term}
    (bound : s.lookup x = some term) : θ.Solves (.var x) term :=
  satisfies ⟨x, term⟩ (Substitution.mem_mappings_of_lookup bound)

/-- Following bindings does not change the value of a variable. -/
theorem Satisfies.follow {θ : Valuation} {s : Substitution}
    (satisfies : θ.Satisfies s) (limit : Nat) (x : Var) :
    θ.Solves (.var x) (s.follow limit x) := by
  induction limit generalizing x with
  | zero => exact θ.solves_refl _
  | succ limit onShorter =>
      rw [Substitution.follow]
      split
      · exact θ.solves_refl _
      · rename_i y bound
        exact (satisfies.lookup bound).trans (onShorter y)
      · rename_i term _ bound
        exact satisfies.lookup bound

/-- Walking does not change the value of a term. -/
theorem Satisfies.walk {θ : Valuation} {s : Substitution}
    (satisfies : θ.Satisfies s) (term : Term) :
    θ.Solves term (s.walk term) := by
  cases term with
  | var x => exact satisfies.follow s.size x
  | atom a => exact θ.solves_refl _
  | pair first second => exact θ.solves_refl _

/-- An equation and its walked form have the same solutions. -/
theorem Satisfies.solves_walk_iff {θ : Valuation} {s : Substitution}
    (satisfies : θ.Satisfies s) (left right : Term) :
    θ.Solves (s.walk left) (s.walk right) ↔ θ.Solves left right := by
  have leftWalked := satisfies.walk left
  have rightWalked := satisfies.walk right
  constructor
  · intro walked
    exact (leftWalked.trans walked).trans rightWalked.symm
  · intro solves
    exact (leftWalked.symm.trans solves).trans rightWalked

end Valuation

/-! ### What one step of unification can do -/

/-- Two walked terms that no binding can make equal. -/
inductive Term.Clash : Term → Term → Prop where
  | atoms {a b : Atom} (different : a.eqv b = false) : Clash (.atom a) (.atom b)
  | atomPair {a : Atom} {first second : Term} :
      Clash (.atom a) (.pair first second)
  | pairAtom {first second : Term} {b : Atom} :
      Clash (.pair first second) (.atom b)

/-- The outcomes of a step, each with what the walked sides look like. -/
inductive Substitution.Reduction (s : Substitution) (equation : Equation) :
    Except Failure (List Equation × Substitution) → Prop where
  /-- One unbound variable on both sides. -/
  | sameVar {x : Var} (left : s.walk equation.left = .var x)
      (right : s.walk equation.right = .var x) :
      Reduction s equation (.ok ([], s))
  /-- An unbound variable on the left is bound to the right side. -/
  | bindLeft {x : Var} {term : Term} (left : s.walk equation.left = .var x)
      (right : s.walk equation.right = term) (different : term ≠ .var x) :
      Reduction s equation ((s.extend x term).map ([], ·))
  /-- An unbound variable on the right is bound to the left side. -/
  | bindRight {y : Var} {term : Term} (left : s.walk equation.left = term)
      (right : s.walk equation.right = .var y) (rigid : ∀ x, term ≠ .var x) :
      Reduction s equation ((s.extend y term).map ([], ·))
  /-- Two pairs are replaced by the equations of their components. -/
  | split {first second first' second' : Term} {allowance : Nat}
      (left : s.walk equation.left = .pair first second)
      (right : s.walk equation.right = .pair first' second')
      (passedOn : equation.passedOn = some allowance) :
      Reduction s equation
        (.ok ([⟨first, first', allowance⟩, ⟨second, second', allowance⟩], s))
  /-- Two pairs, and no allowance left for fetching the left one. -/
  | exhausted {first second first' second' : Term}
      (left : s.walk equation.left = .pair first second)
      (right : s.walk equation.right = .pair first' second')
      (passedOn : equation.passedOn = none) :
      Reduction s equation
        (.error (.mismatch (.pair first second) (.pair first' second')))
  /-- Two equal atoms. -/
  | sameAtom {a b : Atom} (left : s.walk equation.left = .atom a)
      (right : s.walk equation.right = .atom b) (equal : a.eqv b = true) :
      Reduction s equation (.ok ([], s))
  /-- Two sides that cannot be made equal. -/
  | clash (apart : (s.walk equation.left).Clash (s.walk equation.right)) :
      Reduction s equation
        (.error (.mismatch (s.walk equation.left) (s.walk equation.right)))

namespace Substitution

/-- Every step has one of the listed outcomes. -/
theorem reduction_reduce (s : Substitution) (equation : Equation) :
    s.Reduction equation (s.reduce equation) := by
  rw [reduce]
  cases leftWalked : s.walk equation.left with
  | var x =>
      cases rightWalked : s.walk equation.right with
      | var y =>
          by_cases same : x = y
          · subst same
            simp only [if_true]
            exact .sameVar leftWalked rightWalked
          · simp only [same, if_false]
            refine .bindLeft leftWalked rightWalked ?_
            simp [Ne.symm same]
      | atom b => exact .bindLeft leftWalked rightWalked (by simp)
      | pair first' second' =>
          exact .bindLeft leftWalked rightWalked (by simp)
  | atom a =>
      cases rightWalked : s.walk equation.right with
      | var y => exact .bindRight leftWalked rightWalked (by simp)
      | atom b =>
          cases equal : a.eqv b with
          | true =>
              simp only [if_true, equal]
              exact .sameAtom leftWalked rightWalked equal
          | false =>
              have apart : (s.walk equation.left).Clash
                  (s.walk equation.right) := by
                rw [leftWalked, rightWalked]
                exact .atoms equal
              simpa [leftWalked, rightWalked, equal] using
                Reduction.clash apart
      | pair first' second' =>
          have apart : (s.walk equation.left).Clash
              (s.walk equation.right) := by
            rw [leftWalked, rightWalked]
            exact .atomPair
          simpa [leftWalked, rightWalked] using Reduction.clash apart
  | pair first second =>
      cases rightWalked : s.walk equation.right with
      | var y => exact .bindRight leftWalked rightWalked (by simp)
      | atom b =>
          have apart : (s.walk equation.left).Clash
              (s.walk equation.right) := by
            rw [leftWalked, rightWalked]
            exact .pairAtom
          simpa [leftWalked, rightWalked] using Reduction.clash apart
      | pair first' second' =>
          cases passedOn : equation.passedOn with
          | some allowance =>
              exact .split leftWalked rightWalked passedOn
          | none => exact .exhausted leftWalked rightWalked passedOn

/-- No step has two of the listed outcomes. -/
theorem reduce_eq_of_reduction {s : Substitution} {equation : Equation}
    {outcome : Except Failure (List Equation × Substitution)}
    (reduction : s.Reduction equation outcome) :
    s.reduce equation = outcome := by
  cases reduction with
  | sameVar left right => simp [reduce, left, right]
  | @bindLeft x term left right different =>
      cases term with
      | var y =>
          have apart : x ≠ y := by
            intro same
            exact different (congrArg Term.var same.symm)
          simp [reduce, left, right, apart]
      | atom b => simp [reduce, left, right]
      | pair first' second' => simp [reduce, left, right]
  | @bindRight y term left right rigid =>
      cases term with
      | var x => exact absurd rfl (rigid x)
      | atom a => simp [reduce, left, right]
      | pair first second => simp [reduce, left, right]
  | split left right passedOn => simp [reduce, left, right, passedOn]
  | exhausted left right passedOn => simp [reduce, left, right, passedOn]
  | sameAtom left right equal => simp [reduce, left, right, equal]
  | clash apart =>
      cases leftWalked : s.walk equation.left with
      | var x =>
          rw [leftWalked] at apart
          cases apart
      | atom a =>
          cases rightWalked : s.walk equation.right with
          | var y =>
              rw [leftWalked, rightWalked] at apart
              cases apart
          | atom b =>
              rw [leftWalked, rightWalked] at apart
              cases apart with
              | atoms different =>
                  simp [reduce, leftWalked, rightWalked, different]
          | pair first' second' => simp [reduce, leftWalked, rightWalked]
      | pair first second =>
          cases rightWalked : s.walk equation.right with
          | var y =>
              rw [leftWalked, rightWalked] at apart
              cases apart
          | atom b => simp [reduce, leftWalked, rightWalked]
          | pair first' second' =>
              rw [leftWalked, rightWalked] at apart
              cases apart

/-- A binding that is added keeps the valuations that give the variable and
the term one value. -/
theorem satisfies_of_extend {s s' : Substitution} {x : Var} {term : Term}
    {simpler : List Equation}
    (extended : (s.extend x term).map (([] : List Equation), ·) =
      .ok (simpler, s')) :
    simpler = [] ∧ s.extend x term = .ok s' ∧
      ∀ θ : Valuation, θ.Satisfies s' ↔
        θ.Solves (.var x) term ∧ θ.Satisfies s := by
  cases outcome : s.extend x term with
  | error failure => simp [outcome, Except.map] at extended
  | ok grown =>
      simp only [outcome, Except.map, Except.ok.injEq, Prod.mk.injEq]
        at extended
      rcases extended with ⟨rfl, rfl⟩
      obtain ⟨_, rfl⟩ := (extend_eq_ok_iff _ _ _ _).1 outcome
      exact ⟨rfl, rfl, fun θ => Valuation.satisfies_prepend_iff⟩

/-- One step keeps all solutions and adds none. -/
theorem satisfies_of_reduce {s s' : Substitution} {equation : Equation}
    {simpler : List Equation}
    (reduced : s.reduce equation = .ok (simpler, s')) (θ : Valuation) :
    θ.Satisfies s' ∧ θ.SolvesAll simpler ↔
      θ.Satisfies s ∧ θ.Solves equation.left equation.right := by
  -- It is enough to look at the walked sides, as `s` is satisfied either way.
  suffices walked : θ.Satisfies s' ∧ θ.SolvesAll simpler ↔
      θ.Satisfies s ∧ θ.Solves (s.walk equation.left) (s.walk equation.right) by
    rw [walked]
    exact and_congr_right fun satisfies =>
      satisfies.solves_walk_iff equation.left equation.right
  have step := s.reduction_reduce equation
  generalize s.reduce equation = outcome at reduced step
  cases step with
  | sameVar left right =>
      simp only [Except.ok.injEq, Prod.mk.injEq] at reduced
      rcases reduced with ⟨rfl, rfl⟩
      simp [left, right, θ.solves_refl]
  | bindLeft left right different =>
      obtain ⟨rfl, _, satisfied⟩ := satisfies_of_extend reduced
      rw [satisfied θ, left, right]
      simp [and_comm]
  | bindRight left right rigid =>
      obtain ⟨rfl, _, satisfied⟩ := satisfies_of_extend reduced
      rw [satisfied θ, left, right]
      constructor
      · rintro ⟨⟨solves, satisfies⟩, _⟩
        exact ⟨satisfies, solves.symm⟩
      · rintro ⟨satisfies, solves⟩
        exact ⟨⟨solves.symm, satisfies⟩, θ.solvesAll_nil⟩
  | split left right passedOn =>
      simp only [Except.ok.injEq, Prod.mk.injEq] at reduced
      rcases reduced with ⟨rfl, rfl⟩
      simp [left, right]
  | exhausted left right passedOn => simp at reduced
  | sameAtom left right equal =>
      simp only [Except.ok.injEq, Prod.mk.injEq] at reduced
      rcases reduced with ⟨rfl, rfl⟩
      have solves : θ.Solves (s.walk equation.left)
          (s.walk equation.right) := by
        rw [left, right]
        exact equal
      simp [solves]
  | clash apart => simp at reduced

/-- Working through a stack keeps all solutions and adds none. -/
theorem satisfies_of_solve {s s' : Substitution} {stack : List Equation}
    (solved : s.solve stack = .ok s') (θ : Valuation) :
    θ.Satisfies s' ↔ θ.Satisfies s ∧ θ.SolvesAll stack := by
  fun_induction solve s stack with
  | case1 s =>
      simp only [Except.ok.injEq] at solved
      subst solved
      simp
  | case2 s equation rest failure reduced => simp at solved
  | case3 s equation rest simpler grown reduced onSimpler =>
      rw [onSimpler solved, Valuation.solvesAll_append_iff, ← and_assoc,
        satisfies_of_reduce reduced, Valuation.solvesAll_cons_iff, and_assoc]

end Substitution

end Relational
