/-
Module: Relational.Proofs.Correspondence
Purpose: Searches whose data correspond are alike, whatever the correspondence
  is.
Main exports: Traced.Alike.apply, Traced.Alike.disj, Traced.Alike.conj,
  Correspondence, Correspondence.States, Correspondence.Branches,
  Correspondence.search_alike
-/
import Relational.Proofs.Alike
import Relational.Proofs.Derivation

namespace Relational

/-!
A search looks at terms and substitutions in two ways only: it builds the terms
of a goal, and it unifies them.  So if two searches of one goal start from data
that correspond, and unification keeps this up, then the searches are alike:
they show corresponding states and suspensions at the same positions, and they
run out of variables together.

The induction is on the suspensions that are still to be forced, then on the
variables left, then on the calls that may be nested, and then on the goal.
-/

/-! ### Parts and the whole -/

namespace Traced.Alike

variable {program : Program} {related : Branch → Branch → Prop} {ticks : Nat}

/-- Applying plans gives searches that are alike if the plans describe
such. -/
theorem apply {plan plan' : Plan} {b b' : Branch}
    (alike : Traced.Alike program.rules program.rules related ticks
      (plan.search program b) (plan'.search program b')) :
    Traced.Alike program.rules program.rules related ticks
      (plan.apply program b) (plan'.apply program b') := by
  have together : (plan.search program b).events.any Event.isFatal =
      (plan'.search program b').events.any Event.isFatal := alike.fatal
  rw [Plan.apply_eq_stopAt, Plan.apply_eq_stopAt]
  refine ⟨?_, ?_⟩
  · exact (any_stopAt ..).trans (together.trans (any_stopAt ..).symm)
  · rw [stopAt, stopAt, ← together]
    split
    · exact .nil
    · exact alike.values

/-- Disjunctions are alike if their alternatives are. -/
theorem disj {left left' right right' : Plan} {b b' : Branch}
    (lefts : Traced.Alike program.rules program.rules related ticks
      (left.search program (b.choose 0)) (left'.search program (b'.choose 0)))
    (rights : Traced.Alike program.rules program.rules related ticks
      (right.search program (b.choose 1))
      (right'.search program (b'.choose 1))) :
    Traced.Alike program.rules program.rules related ticks
      ((Plan.disj left right).search program b)
      ((Plan.disj left' right').search program b') := by
  rw [Plan.search_disj, Plan.search_disj]
  refine ⟨?_, lefts.values.merge rights.values⟩
  rw [Traced.events_bind, Traced.events_bind, List.any_append, List.any_append,
    lefts.fatal]
  exact congrArg _ rights.fatal

/-- Conjunctions are alike if their first parts are, and their second parts from
related branches. -/
theorem conj {first first' second second' : Plan} {b b' : Branch}
    {between : Branch → Branch → Prop}
    (firsts : Traced.Alike program.rules program.rules between ticks
      (first.search program b) (first'.search program b'))
    (seconds : ∀ fewer ≤ ticks, ∀ {c c'}, between c c' →
      Traced.Alike program.rules program.rules related fewer
        (second.search program c) (second'.search program c')) :
    Traced.Alike program.rules program.rules related ticks
      ((Plan.conj first second).search program b)
      ((Plan.conj first' second').search program b') := by
  rw [Plan.search_conj, Plan.search_conj]
  obtain ⟨fatal, values⟩ := firsts.values.bindWith second second'
    (seconds ticks (Nat.le_refl _))
    fun fewer less _ _ pair => (seconds fewer (Nat.le_of_lt less) pair).apply
  refine ⟨?_, values⟩
  rw [Traced.events_bind, Traced.events_bind, List.any_append, List.any_append,
    firsts.fatal, fatal]

end Traced.Alike

/-! ### Correspondences -/

/-- A relation between the data of two searches that building and unifying terms
keep up.  Variables correspond to themselves from `start` on. -/
structure Correspondence where
  /-- Which expressions are built. -/
  admits : Expr → Bool
  terms : Term → Term → Prop
  substitutions : Substitution → Substitution → Prop
  start : Nat
  terms_var : ∀ {x : Var}, start ≤ x.id → terms (.var x) (.var x)
  terms_build : ∀ {expr : Expr}, admits expr = true →
    ∀ {scope scope' : Scope},
      List.Forall₂ (fun entry entry' => entry.1 = entry'.1 ∧
        terms entry.2 entry'.2) scope scope' →
      ∀ place place', terms (expr.build scope place) (expr.build scope' place')
  unify : ∀ {s s' : Substitution} {left left' right right' : Term},
    substitutions s s' → terms left left' → terms right right' →
      ∀ {t}, s.unify left right = .ok t →
        ∃ t', s'.unify left' right' = .ok t' ∧ substitutions t t'
  unify_back : ∀ {s s' : Substitution} {left left' right right' : Term},
    substitutions s s' → terms left left' → terms right right' →
      ∀ {t'}, s'.unify left' right' = .ok t' →
        ∃ t, s.unify left right = .ok t

namespace Correspondence

/-- Scopes that give corresponding terms to the same names. -/
def Scopes (c : Correspondence) (scope scope' : Scope) : Prop :=
  List.Forall₂ (fun entry entry' => entry.1 = entry'.1 ∧
    c.terms entry.2 entry'.2) scope scope'

/-- States with corresponding substitutions and the same counter. -/
structure States (c : Correspondence) (s s' : State) : Prop where
  substitution : c.substitutions s.substitution s'.substitution
  counter : s.counter = s'.counter
  started : c.start ≤ s.counter

/-- Branches in corresponding states that have handed out variables up to the
counter at least. -/
structure Branches (c : Correspondence) (counter : Nat) (b b' : Branch) :
    Prop where
  states : c.States b.state b'.state
  advanced : counter ≤ b.state.counter

theorem Branches.mono {c : Correspondence} {counter earlier : Nat}
    (less : earlier ≤ counter) {b b' : Branch}
    (branches : c.Branches counter b b') : c.Branches earlier b b' :=
  ⟨branches.states, Nat.le_trans less branches.advanced⟩

/-- From corresponding scopes and states the searches of the goal are alike
until so many suspensions have been forced, if so many variables are left. -/
def Simulates (c : Correspondence) (program : Program)
    (ticks left allowance : Nat) (goal : Goal) : Prop :=
  ∀ {scope scope' : Scope} (place place' : Place) (b b' : Branch),
    goal.every c.admits = true → c.Scopes scope scope' →
    c.States b.state b'.state → Var.capacity - b.state.counter ≤ left →
    Traced.Alike program.rules program.rules (c.Branches b.state.counter)
      ticks ((goal.buildWithin program allowance scope place).search program b)
      ((goal.buildWithin program allowance scope' place').search program b')

variable {c : Correspondence} {program : Program} {ticks left allowance : Nat}

theorem simulates_succeed :
    c.Simulates program ticks left allowance .succeed := by
  intro scope scope' place place' b b' _ _ states _
  rw [Goal.buildWithin_succeed, Goal.buildWithin_succeed, Plan.search_succeed,
    Plan.search_succeed]
  exact ⟨rfl, .cons ⟨states, Nat.le_refl _⟩ .nil⟩

theorem simulates_fail : c.Simulates program ticks left allowance .fail := by
  intro scope scope' place place' b b' _ _ _ _
  rw [Goal.buildWithin_fail, Goal.buildWithin_fail, Plan.search_fail,
    Plan.search_fail]
  exact ⟨rfl, .nil⟩

theorem simulates_eq (first second : Expr) :
    c.Simulates program ticks left allowance (.eq first second) := by
  intro scope scope' place place' b b' admitted scopes states _
  simp only [Goal.every, Bool.and_eq_true] at admitted
  have firsts := c.terms_build admitted.1 scopes (.part 0 place)
    (.part 0 place')
  have seconds := c.terms_build admitted.2 scopes (.part 1 place)
    (.part 1 place')
  rw [Goal.buildWithin_eq, Goal.buildWithin_eq, Plan.search_eq, Plan.search_eq,
    Branch.equate, Branch.equate]
  cases unified : b.state.substitution.unify (first.build scope (.part 0 place))
      (second.build scope (.part 1 place)) with
  | ok substitution =>
      obtain ⟨substitution', unified', corresponds⟩ :=
        c.unify states.substitution firsts seconds unified
      rw [unified']
      exact ⟨rfl, .cons ⟨⟨corresponds, states.counter, states.started⟩,
        Nat.le_refl _⟩ .nil⟩
  | error failure =>
      cases unified' : b'.state.substitution.unify
          (first.build scope' (.part 0 place'))
          (second.build scope' (.part 1 place')) with
      | ok substitution' =>
          obtain ⟨_, contrary⟩ :=
            c.unify_back states.substitution firsts seconds unified'
          rw [unified] at contrary
          cases contrary
      | error failure' => exact ⟨rfl, .nil⟩

theorem simulates_times (count : Nat) :
    c.Simulates program ticks left allowance (.times count) := by
  intro scope scope' place place' b b' _ _ states _
  rw [Goal.buildWithin_times, Goal.buildWithin_times, Plan.search_times,
    Plan.search_times]
  refine ⟨rfl, .ofList ?_⟩
  rw [List.forall₂_map_left_iff, List.forall₂_map_right_iff,
    List.forall₂_same]
  intro index _
  exact ⟨states, Nat.le_refl _⟩

theorem simulates_disj {first second : Goal}
    (onFirst : c.Simulates program ticks left allowance first)
    (onSecond : c.Simulates program ticks left allowance second) :
    c.Simulates program ticks left allowance (.disj first second) := by
  intro scope scope' place place' b b' admitted scopes states supply
  simp only [Goal.every, Bool.and_eq_true] at admitted
  rw [Goal.buildWithin_disj, Goal.buildWithin_disj]
  exact .disj
    (onFirst _ _ (b.choose 0) (b'.choose 0) admitted.1 scopes states supply)
    (onSecond _ _ (b.choose 1) (b'.choose 1) admitted.2 scopes states supply)

theorem simulates_conj {first second : Goal}
    (onFirst : c.Simulates program ticks left allowance first)
    (onSecond : c.Simulates program ticks left allowance second) :
    c.Simulates program ticks left allowance (.conj first second) := by
  intro scope scope' place place' b b' admitted scopes states supply
  simp only [Goal.every, Bool.and_eq_true] at admitted
  rw [Goal.buildWithin_conj, Goal.buildWithin_conj]
  refine .conj (onFirst _ _ b b' admitted.1 scopes states supply) ?_
  -- A branch in between has at most as many variables left, and what follows
  -- it follows the first branch.
  intro fewer less between between' branches
  have supply' : Var.capacity - between.state.counter ≤ left :=
    Nat.le_trans (Nat.sub_le_sub_left branches.advanced _) supply
  obtain ⟨fatal, values⟩ := onSecond (.part 1 place) (.part 1 place') between
    between' admitted.2 scopes branches.states supply'
  exact ⟨fatal, values.mono (.mono branches.advanced) less⟩

theorem simulates_fresh (name : String) {body : Goal}
    (onBody : ∀ fewer < left, ∀ allowance,
      c.Simulates program ticks fewer allowance body) :
    c.Simulates program ticks left allowance (.fresh name body) := by
  intro scope scope' place place' b b' admitted scopes states supply
  rw [Goal.buildWithin_fresh, Goal.buildWithin_fresh]
  cases introduced : b.state.fresh? with
  | none =>
      have introduced' : b'.state.fresh? = none := by
        rw [State.fresh?_eq_none_iff] at introduced ⊢
        rw [← states.counter]
        exact introduced
      rw [Plan.search_fresh_of_none program b name _ introduced,
        Plan.search_fresh_of_none program b' name _ introduced']
      exact ⟨rfl, .nil⟩
  | some pair =>
      rcases pair with ⟨x, started⟩
      obtain ⟨sameId, rfl⟩ := State.fresh?_eq_some_iff.1 introduced
      have introduced' : b'.state.fresh? =
          some (x, ⟨b'.state.substitution, b'.state.counter + 1⟩) :=
        State.fresh?_eq_some_iff.2 ⟨sameId.trans states.counter, rfl⟩
      rw [Plan.search_fresh program b name _ introduced,
        Plan.search_fresh program b' name _ introduced']
      have fewer : Var.capacity - (b.state.counter + 1) < left := by
        have inRange := x.inRange
        omega
      have inner : c.Scopes ((name, .var x) :: scope)
          ((name, .var x) :: scope') :=
        .cons ⟨rfl, c.terms_var (sameId ▸ states.started)⟩ scopes
      have advanced : c.States b.advanced.state b'.advanced.state :=
        ⟨states.substitution, congrArg (· + 1) states.counter,
          Nat.le_succ_of_le states.started⟩
      obtain ⟨fatal, values⟩ := onBody _ fewer program.allowance
        (.visit place b.choices) (.visit place' b'.choices) b.advanced
        b'.advanced admitted inner advanced (Nat.le_refl _)
      exact ⟨fatal, values.mono (.mono (Nat.le_succ _)) (Nat.le_refl _)⟩

/-- A suspension is alike if its body is once it is forced. -/
theorem alike_suspend
    (onFewerTicks : ∀ fewer < ticks, ∀ left allowance goal,
      c.Simulates program fewer left allowance goal) (goal : Goal)
    (admitted : goal.every c.admits = true) {scope scope' : Scope}
    (scopes : c.Scopes scope scope') (place place' : Place) {b b' : Branch}
    (states : c.States b.state b'.state) :
    Traced.Alike program.rules program.rules (c.Branches b.state.counter)
      ticks ((Plan.suspend ⟨goal, scope, place⟩).search program b)
      ((Plan.suspend ⟨goal, scope', place'⟩).search program b') := by
  rw [Plan.search_suspend, Plan.search_suspend]
  refine ⟨rfl, ?_⟩
  cases ticks with
  | zero => exact .unforced
  | succ ticks =>
      have forced := (onFewerTicks ticks (Nat.lt_succ_self ticks) _
        program.allowance goal (.visit place b.choices)
        (.visit place' b'.choices) b b' admitted scopes states
        (Nat.le_refl _)).apply
      refine .forced ?_ ?_
      · rw [Suspension.force_task, Suspension.force_task]
        exact forced.fatal
      · rw [Suspension.force_task, Suspension.force_task]
        exact forced.values

theorem simulates_call (admittedProgram : program.every c.admits = true)
    (name : String) (arguments : List Expr)
    (onFewerTicks : ∀ fewer < ticks, ∀ left allowance goal,
      c.Simulates program fewer left allowance goal)
    (onLessAllowance : ∀ less < allowance, ∀ goal,
      c.Simulates program ticks left less goal) :
    c.Simulates program ticks left allowance (.call name arguments) := by
  intro scope scope' place place' b b' admitted scopes states supply
  cases found : program.find? name with
  | none =>
      rw [Goal.buildWithin_call_of_none program allowance scope place _ found,
        Goal.buildWithin_call_of_none program allowance scope' place' _ found,
        Plan.search_fail, Plan.search_fail]
      exact ⟨rfl, .nil⟩
  | some relation =>
      have body := Program.every_body admittedProgram found
      have inner : c.Scopes
          (relation.scope (Goal.buildArguments scope (.part 0 place) arguments))
          (relation.scope
            (Goal.buildArguments scope' (.part 0 place') arguments)) :=
        relation.scope_related (Goal.buildArguments_related
          (fun _ member => c.terms_build
            (List.all_eq_true.1 admitted _ member) scopes) _ _)
      cases allowance with
      | zero =>
          rw [Goal.buildWithin_call_zero program scope place _ found,
            Goal.buildWithin_call_zero program scope' place' _ found]
          exact alike_suspend onFewerTicks _ body inner _ _ states
      | succ allowance =>
          rw [Goal.buildWithin_call program allowance scope place _ found,
            Goal.buildWithin_call program allowance scope' place' _ found]
          exact onLessAllowance allowance (Nat.lt_succ_self _) relation.body
            _ _ b b' body inner states supply

theorem simulates (admittedProgram : program.every c.admits = true)
    (ticks left allowance : Nat) (goal : Goal) :
    c.Simulates program ticks left allowance goal := by
  induction ticks using Nat.strongRecOn generalizing left allowance goal with
  | ind ticks onFewerTicks =>
  induction left using Nat.strongRecOn generalizing allowance goal with
  | ind left onFewerLeft =>
  induction allowance using Nat.strongRecOn generalizing goal with
  | ind allowance onLessAllowance =>
  induction goal with
  | succeed => exact simulates_succeed
  | fail => exact simulates_fail
  | never =>
      intro scope scope' place place' b b' _ _ states _
      rw [Goal.buildWithin_never, Goal.buildWithin_never]
      exact alike_suspend onFewerTicks _ rfl .nil place place' states
  | always =>
      intro scope scope' place place' b b' _ _ states _
      rw [Goal.buildWithin_always, Goal.buildWithin_always]
      exact alike_suspend onFewerTicks _ rfl .nil place place' states
  | eq first second => exact simulates_eq first second
  | disj first second onFirst onSecond =>
      exact simulates_disj onFirst onSecond
  | conj first second onFirst onSecond =>
      exact simulates_conj onFirst onSecond
  | fresh name body _ =>
      exact simulates_fresh name
        fun fewer less allowance => onFewerLeft fewer less allowance body
  | suspend body _ =>
      intro scope scope' place place' b b' admitted scopes states _
      rw [Goal.buildWithin_suspend, Goal.buildWithin_suspend]
      exact alike_suspend onFewerTicks body admitted scopes place place' states
  | call name arguments =>
      exact simulates_call admittedProgram name arguments onFewerTicks
        onLessAllowance
  | times count => exact simulates_times count

/-- Searches of one goal are alike if their data correspond, wherever the goal
is built and however the branches were reached. -/
theorem search_alike (admittedProgram : program.every c.admits = true)
    {goal : Goal} (admitted : goal.every c.admits = true)
    {scope scope' : Scope} (scopes : c.Scopes scope scope')
    (place place' : Place) (ticks : Nat) (b b' : Branch)
    (states : c.States b.state b'.state) :
    Traced.Alike program.rules program.rules (c.Branches b.state.counter)
      ticks ((goal.build program scope place).search program b)
      ((goal.build program scope' place').search program b') :=
  simulates admittedProgram ticks _ program.allowance goal place place' b b'
    admitted scopes states (Nat.le_refl _)

end Correspondence

end Relational
