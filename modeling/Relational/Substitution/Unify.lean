/-
Module: Relational.Substitution.Unify
Purpose: Unification of terms under a substitution.
Main exports: Equation, Substitution.reduce, Substitution.solve, Substitution.unify
-/
import Relational.Substitution.Basic

namespace Relational

/-!
Unification works through a stack of equations.  The topmost one is looked at after walking both
of its sides, and the choices are made in this order: a variable against itself, a variable on the
left, a variable on the right, two pairs, two equal atoms; anything else is a mismatch of the two
walked sides.  Two pairs are replaced by the equations of their components, first components on
top.

The loop ends because of an order on equations.  Replacing an equation of two pairs keeps its
allowance and shortens its left side, unless the left side was a bound variable; then the left side
is fetched from the substitution and may be larger than before, but the allowance drops.  The
variables that are crossed in this way on the way down from one equation are different from each
other as long as the bindings have no cycle, so an allowance of one for every variable in
existence is never used up.
-/

/-- Two terms to be made equal, and how often a bound variable may still be crossed on the left. -/
structure Equation where
  left : Term
  right : Term
  allowance : Nat
deriving DecidableEq, Repr

namespace Equation

/-- The order in which an equation is replaced by simpler ones. -/
def Simpler (simpler equation : Equation) : Prop :=
  Prod.Lex (· < ·) (· < ·) (simpler.allowance, simpler.left.size)
    (equation.allowance, equation.left.size)

theorem simpler_wellFounded : WellFounded Simpler :=
  InvImage.wf (fun equation : Equation => (equation.allowance, equation.left.size))
    (Prod.lex ⟨_, Nat.lt_wfRel.wf⟩ ⟨_, Nat.lt_wfRel.wf⟩).wf

/-- A stack becomes lower when its top is replaced by any number of simpler equations. -/
inductive Lower : List Equation → List Equation → Prop where
  | replace {equation : Equation} (simpler rest : List Equation)
      (each : ∀ e ∈ simpler, e.Simpler equation) : Lower (simpler ++ rest) (equation :: rest)

theorem lower_accessible_cons (equation : Equation) :
    ∀ rest, Acc Lower rest → Acc Lower (equation :: rest) := by
  induction equation using simpler_wellFounded.induction with
  | _ equation hypothesis =>
      intro rest restAccessible
      refine ⟨_, fun below step => ?_⟩
      cases step with
      | replace simpler _ each =>
          induction simpler with
          | nil => exact restAccessible
          | cons head tail onTail =>
              exact hypothesis head (each head (by simp)) _
                (onTail fun e member => each e (by simp [member]))

theorem lower_wellFounded : WellFounded Lower := by
  refine ⟨fun stack => ?_⟩
  induction stack with
  | nil => exact ⟨_, fun _ step => nomatch step⟩
  | cons equation rest onRest => exact lower_accessible_cons equation rest onRest

instance : WellFoundedRelation (List Equation) := ⟨Lower, lower_wellFounded⟩

end Equation

/-- The allowance of the equations that replace an equation of two pairs: one less if the left
side has to be fetched from the substitution, and nothing if there is none left for that. -/
def Equation.passedOn (equation : Equation) : Option Nat :=
  match equation.left, equation.allowance with
  | .var _, 0 => none
  | .var _, allowance + 1 => some allowance
  | _, allowance => some allowance

namespace Substitution

/-- One step on the topmost equation: the equations that replace it, and the substitution to go on
with. -/
def reduce (s : Substitution) (equation : Equation) :
    Except Failure (List Equation × Substitution) :=
  match s.walk equation.left, s.walk equation.right with
  | .var x, .var y =>
    if x = y then .ok ([], s) else (s.extend x (.var y)).map ([], ·)
  | .var x, right => (s.extend x right).map ([], ·)
  | left, .var y => (s.extend y left).map ([], ·)
  | .pair first second, .pair first' second' =>
    match equation.passedOn with
    | some allowance => .ok ([⟨first, first', allowance⟩, ⟨second, second', allowance⟩], s)
    | none => .error (.mismatch (.pair first second) (.pair first' second'))
  | .atom a, .atom b =>
    if a.eqv b then .ok ([], s) else .error (.mismatch (.atom a) (.atom b))
  | left, right => .error (.mismatch left right)

theorem simpler_of_reduce {s s' : Substitution} {equation : Equation} {simpler : List Equation}
    (reduced : s.reduce equation = .ok (simpler, s')) :
    ∀ e ∈ simpler, e.Simpler equation := by
  obtain ⟨left, right, allowance⟩ := equation
  have extended : ∀ {x : Var} {term : Term},
      (s.extend x term).map (fun s' => (([] : List Equation), s')) = .ok (simpler, s') →
        simpler = [] := by
    intro x term mapped
    cases outcome : s.extend x term <;> simp_all [Except.map]
  unfold reduce at reduced
  split at reduced
  · split at reduced
    · simp_all
    · simp [extended reduced]
  · simp [extended reduced]
  · simp [extended reduced]
  · rename_i first second first' second' leftWalked rightWalked
    dsimp only at leftWalked
    split at reduced
    · rename_i passed passedOn
      simp only [Except.ok.injEq, Prod.mk.injEq] at reduced
      obtain ⟨rfl, rfl⟩ := reduced
      cases left with
      | var x =>
          cases allowance with
          | zero => simp [Equation.passedOn] at passedOn
          | succ n =>
              simp only [Equation.passedOn, Option.some.injEq] at passedOn
              subst passedOn
              intro e member
              simp only [List.mem_cons, List.not_mem_nil, or_false] at member
              rcases member with rfl | rfl <;> exact Prod.Lex.left _ _ (Nat.lt_succ_self _)
      | atom a => simp [walk] at leftWalked
      | pair a b =>
          simp only [walk, Term.pair.injEq] at leftWalked
          obtain ⟨rfl, rfl⟩ := leftWalked
          simp only [Equation.passedOn, Option.some.injEq] at passedOn
          subst passedOn
          intro e member
          simp only [List.mem_cons, List.not_mem_nil, or_false] at member
          rcases member with rfl | rfl <;> refine Prod.Lex.right _ ?_ <;>
            simp only [Term.size] <;> omega
    · simp at reduced
  · split at reduced <;> simp_all
  · simp at reduced

/-- Works through a stack of equations. -/
def solve (s : Substitution) (stack : List Equation) : Except Failure Substitution :=
  match stack with
  | [] => .ok s
  | equation :: rest =>
    match _ : s.reduce equation with
    | .error failure => .error failure
    | .ok (simpler, s') => s'.solve (simpler ++ rest)
termination_by stack
decreasing_by exact .replace _ _ (simpler_of_reduce (by assumption))

/-- A stack is worked through from its top: whatever lies below waits for the substitution that
the equations above it produce. -/
theorem solve_append (s : Substitution) (above below : List Equation) :
    s.solve (above ++ below) = (s.solve above).bind fun s' => s'.solve below := by
  induction above using Equation.lower_wellFounded.induction generalizing s with
  | _ above hypothesis =>
      cases above with
      | nil => simp [solve, Except.bind]
      | cons equation rest =>
          rw [List.cons_append, solve, solve]
          split
          · rfl
          · rename_i simpler s' reduced
            rw [← List.append_assoc,
              hypothesis _ (.replace _ _ (simpler_of_reduce reduced))]

/-- Makes two terms equal by adding bindings, or tells why that cannot be done. -/
def unify (s : Substitution) (left right : Term) : Except Failure Substitution :=
  s.solve [⟨left, right, Var.capacity⟩]

end Substitution

end Relational
