/-
Module: Relational.Proofs.Adequacy
Purpose: A search finds the solutions of its goal and nothing else.
Main exports: Goal.Derivation.holds, Valuation.Fits, State.Supplies,
  Goal.HoldsWith.exists_derivation, Goal.HoldsWith.stops,
  Goal.search_adequate
-/
import Mathlib.Logic.Function.Basic
import Relational.Proofs.Enumeration
import Relational.Proofs.Meaning
import Relational.Proofs.Unification

namespace Relational

/-!
Derivations are what the search and the meaning of a goal have in common.  The
positions of the search are those of derivations, so it remains to compare
derivations with solutions.

A valuation that satisfies the state at the end of a derivation is a solution
of the goal: read backwards, every equation of the derivation holds under it.
Conversely a solution guides a derivation.  Each equation that is met can be
solved, as the valuation solves it, and a new variable receives the value that
the solution chose for it.  The valuation is changed only at variables that
nothing so far has mentioned.
-/

/-- Equal mappings are satisfied alike. -/
theorem Substitution.Similar.satisfies {s s' : Substitution}
    (similar : s.Similar s') {θ : Valuation} (satisfied : θ.Satisfies s) :
    θ.Satisfies s' := by
  intro mapping' member
  obtain ⟨index, rfl⟩ := List.mem_iff_get.1 member
  have within : index < s.mappings.length := by
    rw [List.Forall₂.length_eq similar]
    exact index.isLt
  obtain ⟨same, equal⟩ := List.Forall₂.get similar within index.isLt
  have solved := satisfied _ (List.get_mem _ ⟨index, within⟩)
  rw [same] at solved
  exact solved.trans (Term.subst_eqv_of_eqv θ equal)

/-- Whether mappings are satisfied depends on their variables only. -/
theorem Valuation.Satisfies.of_agreesBelow {s : Substitution} {θ : Valuation}
    (satisfied : θ.Satisfies s) {bound : Nat} {θ' : Valuation}
    (agree : θ.AgreesBelow bound θ') (below : s.isBelow bound = true) :
    θ'.Satisfies s := by
  intro mapping member
  have both := List.all_eq_true.1 below mapping member
  simp only [Bool.and_eq_true, decide_eq_true_eq] at both
  have solved := satisfied mapping member
  rw [Solves, Term.subst_var] at solved ⊢
  rw [agree mapping.var both.1, Term.subst_eq_of_agreesBelow agree both.2]
  exact solved

namespace Goal

variable {program : Program}

/-! ### Soundness -/

/-- A valuation that satisfies the end of a derivation satisfies its beginning,
and the goal holds under it. -/
theorem Derivation.holds {goal : Goal} {scope : Scope} {s s' : State}
    (plainProgram : program.isPlain = true)
    (derivation : Derivation program goal scope s s')
    (plain : goal.isPlain = true) {θ : Valuation}
    (satisfied : θ.Satisfies s'.substitution) :
    θ.Satisfies s.substitution ∧
      ∀ {values : Scope}, (scope.image θ).Similar values →
        ∃ count, s'.counter = s.counter + count ∧
          HoldsWith program θ count goal values := by
  induction derivation with
  | succeed => exact ⟨satisfied, fun _ => ⟨0, rfl, .succeed⟩⟩
  | always unfolded onUnfolded =>
      obtain ⟨before, holds⟩ := onUnfolded rfl satisfied
      refine ⟨before, fun _ => ⟨0, ?_, .always⟩⟩
      -- Whichever way the unfolded goal holds, it takes no variables.
      obtain ⟨count, advanced, inside⟩ := holds (.refl _)
      cases inside with
      | suspend inside =>
          cases inside with
          | disjLeft inside => cases inside; exact advanced
          | disjRight inside => cases inside; exact advanced
  | eq unified =>
      simp only [isPlain, every, Bool.and_eq_true] at plain
      obtain ⟨before, solved⟩ :=
        (Substitution.satisfies_of_solve unified θ).1 satisfied
      have solves := solved _ (List.mem_singleton_self _)
      refine ⟨before, fun similar => ⟨0, rfl, .eq ?_⟩⟩
      exact Term.eqv_trans
        (Term.eqv_comm (Expr.subst_build plain.1 similar _))
        (Term.eqv_trans solves (Expr.subst_build plain.2 similar _))
  | disjLeft onLeft inside =>
      simp only [isPlain, every, Bool.and_eq_true] at plain
      obtain ⟨before, holds⟩ := inside plain.1 satisfied
      refine ⟨before, fun similar => ?_⟩
      obtain ⟨count, advanced, onLeft⟩ := holds similar
      exact ⟨count, advanced, .disjLeft onLeft⟩
  | disjRight onRight inside =>
      simp only [isPlain, every, Bool.and_eq_true] at plain
      obtain ⟨before, holds⟩ := inside plain.2 satisfied
      refine ⟨before, fun similar => ?_⟩
      obtain ⟨count, advanced, onRight⟩ := holds similar
      exact ⟨count, advanced, .disjRight onRight⟩
  | conj onFirst onSecond first second =>
      simp only [isPlain, every, Bool.and_eq_true] at plain
      obtain ⟨between, holdsSecond⟩ := second plain.2 satisfied
      obtain ⟨before, holdsFirst⟩ := first plain.1 between
      refine ⟨before, fun similar => ?_⟩
      obtain ⟨count, advanced, onFirst⟩ := holdsFirst similar
      obtain ⟨count', advanced', onSecond⟩ := holdsSecond similar
      refine ⟨count + count', ?_, .conj onFirst onSecond⟩
      rw [advanced', advanced, Nat.add_assoc]
  | fresh x introduced inside onInside =>
      obtain ⟨_, rfl⟩ := State.fresh?_eq_some_iff.1 introduced
      obtain ⟨before, holds⟩ := onInside plain satisfied
      refine ⟨before, fun similar => ?_⟩
      obtain ⟨count, advanced, inside⟩ :=
        holds (.cons ⟨rfl, Term.eqv_refl (θ x)⟩ similar)
      refine ⟨count + 1, ?_, .fresh (θ x) inside⟩
      rw [advanced, Nat.add_assoc, Nat.add_comm 1]
  | suspend inside onInside =>
      obtain ⟨before, holds⟩ := onInside plain satisfied
      refine ⟨before, fun similar => ?_⟩
      obtain ⟨count, advanced, inside⟩ := holds similar
      exact ⟨count, advanced, .suspend inside⟩
  | call relation found inside onInside =>
      obtain ⟨before, holds⟩ :=
        onInside (Program.every_body plainProgram found) satisfied
      refine ⟨before, fun similar => ?_⟩
      obtain ⟨count, advanced, inside⟩ :=
        holds (relation.scope_image_similar plain similar (.root 0))
      exact ⟨count, advanced, .call relation found inside⟩
  | times index => exact ⟨satisfied, fun _ => ⟨0, rfl, .times index.pos⟩⟩

end Goal

/-! ### Completeness -/

/-- The state has so many variables to hand out. -/
def State.Supplies (s : State) (count : Nat) : Prop :=
  count = 0 ∨ s.counter + count ≤ Var.capacity

namespace State

theorem Supplies.first {s : State} {count count' : Nat}
    (supplied : s.Supplies (count + count')) : s.Supplies count := by
  unfold Supplies at *
  omega

/-- Variables that are handed out in two parts. -/
theorem supplies_add_iff {s between : State} {count count' : Nat}
    (advanced : between.counter = s.counter + count) :
    s.Supplies (count + count') ↔
      s.Supplies count ∧ between.Supplies count' := by
  unfold Supplies
  omega

theorem Supplies.exists_fresh {s : State} {count : Nat}
    (supplied : s.Supplies (count + 1)) :
    ∃ x started, s.fresh? = some (x, started) := by
  have inRange : s.counter < Var.capacity := by
    unfold Supplies at supplied
    omega
  exact ⟨⟨s.counter, inRange⟩, ⟨s.substitution, s.counter + 1⟩,
    fresh?_eq_some_iff.2 ⟨rfl, rfl⟩⟩

theorem supplies_succ_iff {s started : State} {x : Var}
    (introduced : s.fresh? = some (x, started)) {count : Nat} :
    s.Supplies (count + 1) ↔ started.Supplies count := by
  obtain ⟨sameId, rfl⟩ := fresh?_eq_some_iff.1 introduced
  have inRange := x.inRange
  simp only [Supplies]
  omega

end State

/-- The valuation satisfies the state, and neither the state nor the scope
mentions a variable that has not been handed out yet. -/
structure Valuation.Fits (θ : Valuation) (scope : Scope) (s : State) :
    Prop where
  built : s.substitution.Built
  scopeBelow : scope.isBelow s.counter = true
  satisfied : ∀ θ', θ.AgreesBelow s.counter θ' → θ'.Satisfies s.substitution

namespace Valuation.Fits

variable {θ : Valuation} {scope : Scope} {s : State}

/-- The same state fits for another scope. -/
theorem withScope (fits : θ.Fits scope s) {scope' : Scope}
    (below : scope'.isBelow s.counter = true) : θ.Fits scope' s :=
  ⟨fits.built, below, fits.satisfied⟩

/-- The valuation fits the scope in which a call enters the body of a relation,
and the terms there have the values of the arguments. -/
theorem call (fits : θ.Fits scope s) (relation : Relation) {bound : Nat}
    (old : bound ≤ s.counter) {arguments : List Expr}
    (plain : arguments.all Expr.isPlain = true)
    (below : arguments.all (Expr.isBelow bound) = true) {θ₀ : Valuation}
    (agree : θ₀.AgreesBelow bound θ) {values : Scope}
    (similar : (scope.image θ).Similar values) :
    θ.Fits (relation.scope (Goal.buildArguments scope (.root 0) arguments)) s ∧
      ((relation.scope (Goal.buildArguments scope (.root 0) arguments)).image
        θ).Similar
        (relation.scope (arguments.map (Expr.eval θ₀ values))) := by
  constructor
  · apply fits.withScope
    apply relation.scope_isBelow _ fits.scopeBelow
    rw [List.all_eq_true] at below ⊢
    intro argument member
    exact Expr.isBelow_mono old (below argument member)
  · rw [← Expr.map_eval_eq_of_agreesBelow agree below]
    exact relation.scope_image_similar plain similar (.root 0)

/-- Other values for later variables do not change those of the scope. -/
theorem similar_of_agreesBelow (fits : θ.Fits scope s) {θ' : Valuation}
    (agree : θ.AgreesBelow s.counter θ') {values : Scope}
    (similar : (scope.image θ).Similar values) :
    (scope.image θ').Similar values := by
  rw [Scope.image_eq_of_agreesBelow agree fits.scopeBelow]
  exact similar

/-- Where the valuation solves an equation, unification succeeds, and the
valuation fits the result. -/
theorem unify (fits : θ.Fits scope s) {left right : Term}
    (leftBelow : left.isBelow s.counter = true)
    (rightBelow : right.isBelow s.counter = true)
    (solves : θ.Solves left right) :
    ∃ substitution, s.substitution.unify left right = .ok substitution ∧
      θ.Fits scope (s.withSubstitution substitution) := by
  have satisfied := fits.satisfied θ (.refl _ _)
  cases outcome : s.substitution.unify left right with
  | error failure =>
      exact absurd solves (Substitution.not_solves_of_unify_error
        fits.built.wellFormed outcome satisfied)
  | ok substitution =>
      refine ⟨substitution, rfl, .unify fits.built outcome, fits.scopeBelow, ?_⟩
      intro θ' agree
      refine (Substitution.satisfies_of_solve outcome θ').2
        ⟨fits.satisfied θ' agree, ?_⟩
      intro equation member
      rw [List.mem_singleton.1 member, Solves,
        Term.subst_eq_of_agreesBelow agree leftBelow,
        Term.subst_eq_of_agreesBelow agree rightBelow]
      exact solves

/-- A new variable may be given any value. -/
theorem fresh (fits : θ.Fits scope s) {x : Var} {started : State}
    (introduced : s.fresh? = some (x, started)) (name : String)
    (value : Term) :
    θ.AgreesBelow s.counter (Function.update θ x value) ∧
      Valuation.Fits (Function.update θ x value) ((name, .var x) :: scope)
        started := by
  obtain ⟨sameId, rfl⟩ := State.fresh?_eq_some_iff.1 introduced
  have agree : θ.AgreesBelow s.counter (Function.update θ x value) := by
    intro y below
    refine Function.update_of_ne ?_ value θ
    intro same
    rw [same, sameId] at below
    exact Nat.lt_irrefl _ below
  refine ⟨agree, fits.built, ?_, ?_⟩
  · have older := Scope.isBelow_mono (Nat.le_succ _) fits.scopeBelow
    have newest : (Term.var x).isBelow (s.counter + 1) = true := by
      simp [Term.isBelow, Term.vars, sameId]
    simp only [Scope.isBelow, List.all_cons, Bool.and_eq_true]
    exact ⟨newest, older⟩
  · intro θ' agree'
    exact fits.satisfied θ' (agree.trans (agree'.mono (Nat.le_succ _)))

end Valuation.Fits

namespace Goal

variable {program : Program}

/-- A goal that holds has a derivation from every state that the valuation
fits and that has the variables for it.  The valuation can be changed at new
variables so that it fits the derived state. -/
theorem HoldsWith.exists_derivation (plainProgram : program.isPlain = true)
    {bound : Nat} (programBelow : program.isBelow bound = true)
    {θ₀ : Valuation} {count : Nat} {goal : Goal} {values : Scope}
    (holds : HoldsWith program θ₀ count goal values)
    (plain : goal.isPlain = true) (below : goal.isBelow bound = true)
    {θ : Valuation} (agree : θ₀.AgreesBelow bound θ) {scope : Scope}
    {s : State} (fits : θ.Fits scope s) (old : bound ≤ s.counter)
    (similar : (scope.image θ).Similar values) (supplied : s.Supplies count) :
    ∃ (s' : State) (_ : Derivation program goal scope s s') (θ' : Valuation),
      θ.AgreesBelow s.counter θ' ∧ θ'.Fits scope s' ∧
        s'.counter = s.counter + count := by
  -- The goal holds under `θ₀`.  On the way through it `θ` receives the values
  -- of the new variables, which neither the goal nor the relations mention.
  induction holds generalizing θ scope s with
  | succeed => exact ⟨s, .succeed, θ, .refl _ _, fits, rfl⟩
  | always =>
      exact ⟨s, .always (.suspend (.disjLeft .succeed)), θ, .refl _ _, fits,
        rfl⟩
  | @eq left right values equal =>
      simp only [isPlain, isBelow, every, Bool.and_eq_true] at plain below
      have leftBelow := Expr.build_isBelow (Expr.isBelow_mono old below.1)
        fits.scopeBelow (.root 0)
      have rightBelow := Expr.build_isBelow (Expr.isBelow_mono old below.2)
        fits.scopeBelow (.root 1)
      rw [← Expr.eval_eq_of_agreesBelow agree below.1,
        ← Expr.eval_eq_of_agreesBelow agree below.2] at equal
      have solves : θ.Solves (left.build scope (.root 0))
          (right.build scope (.root 1)) :=
        Term.eqv_trans (Expr.subst_build plain.1 similar _)
          (Term.eqv_trans equal
            (Term.eqv_comm (Expr.subst_build plain.2 similar _)))
      obtain ⟨substitution, unified, fits'⟩ :=
        fits.unify leftBelow rightBelow solves
      exact ⟨_, .eq unified, θ, .refl _ _, fits', rfl⟩
  | disjLeft _ inside =>
      simp only [isPlain, isBelow, every, Bool.and_eq_true] at plain below
      obtain ⟨s', derivation, rest⟩ :=
        inside plain.1 below.1 agree fits old similar supplied
      exact ⟨s', .disjLeft derivation, rest⟩
  | disjRight _ inside =>
      simp only [isPlain, isBelow, every, Bool.and_eq_true] at plain below
      obtain ⟨s', derivation, rest⟩ :=
        inside plain.2 below.2 agree fits old similar supplied
      exact ⟨s', .disjRight derivation, rest⟩
  | @conj count count' first second values _ _ onFirst onSecond =>
      simp only [isPlain, isBelow, every, Bool.and_eq_true] at plain below
      obtain ⟨between, derivation, θ₁, agree₁, fits₁, advanced⟩ :=
        onFirst plain.1 below.1 agree fits old similar supplied.first
      have forSecond := ((State.supplies_add_iff advanced).1 supplied).2
      have similar₁ := fits.similar_of_agreesBelow agree₁ similar
      obtain ⟨s', derivation', θ₂, agree₂, fits₂, advanced'⟩ :=
        onSecond plain.2 below.2 (agree.trans (agree₁.mono old)) fits₁
          (Nat.le_trans old derivation.counter_le) similar₁ forSecond
      refine ⟨s', .conj derivation derivation', θ₂,
        agree₁.trans (agree₂.mono derivation.counter_le), fits₂, ?_⟩
      rw [advanced', advanced, Nat.add_assoc]
  | @fresh count name body values value _ inside =>
      obtain ⟨x, started, introduced⟩ := supplied.exists_fresh
      obtain ⟨agree₁, fits₁⟩ := fits.fresh introduced name value
      have similar₁ := fits.similar_of_agreesBelow agree₁ similar
      have forBody := (State.supplies_succ_iff introduced).1 supplied
      obtain ⟨_, rfl⟩ := State.fresh?_eq_some_iff.1 introduced
      obtain ⟨s', derivation, θ', agree', fits', advanced⟩ :=
        inside plain below (agree.trans (agree₁.mono old)) fits₁
          (Nat.le_succ_of_le old)
          (.cons ⟨rfl, by simp [Term.eqv_refl]⟩ similar₁) forBody
      have older : s.counter ≤ s'.counter :=
        Nat.le_trans (Nat.le_succ _) derivation.counter_le
      refine ⟨s', .fresh x introduced derivation, θ',
        agree₁.trans (agree'.mono (Nat.le_succ _)),
        fits'.withScope (Scope.isBelow_mono older fits.scopeBelow), ?_⟩
      rw [advanced, Nat.add_assoc, Nat.add_comm 1]
  | suspend _ inside =>
      obtain ⟨s', derivation, rest⟩ :=
        inside plain below agree fits old similar supplied
      exact ⟨s', .suspend derivation, rest⟩
  | @call count name arguments values relation found _ inside =>
      obtain ⟨fitsBody, inner⟩ :=
        fits.call relation old plain below agree similar
      obtain ⟨s', derivation, θ', agree', fits', advanced⟩ :=
        inside (Program.every_body plainProgram found)
          (Program.every_body programBelow found) agree fitsBody old inner
          supplied
      refine ⟨s', .call relation found derivation, θ', agree', ?_, advanced⟩
      exact fits'.withScope
        (Scope.isBelow_mono derivation.counter_le fits.scopeBelow)
  | times positive =>
      exact ⟨s, .times ⟨0, positive⟩, θ, .refl _ _, fits, rfl⟩

end Goal

/-! ### Running out of variables

Where a solution takes more variables than there are, the search for it comes
upon the shortage: merging and binding hide it no more than they hide an
answer. -/

namespace Plan

variable {program : Program} {b : Branch}

theorem stops_disj {left right : Plan}
    (stops : (left.search program (b.choose 0)).Stops program.described ∨
      (right.search program (b.choose 1)).Stops program.described) :
    ((Plan.disj left right).search program b).Stops program.described := by
  rw [search_disj]
  rcases stops with (atOnce | later) | (atOnce | later)
  · left
    rw [Traced.events_bind, List.any_append, atOnce, Bool.true_or]
  · exact Or.inr (later.merge _).1
  · left
    rw [Traced.events_bind, List.any_append, Traced.events_map, atOnce,
      Bool.or_true]
  · exact Or.inr (later.merge _).2

theorem stops_conj_first {first : Plan} (second : Plan)
    (stops : (first.search program b).Stops program.described) :
    ((Plan.conj first second).search program b).Stops program.described := by
  rw [search_conj]
  rcases stops with atOnce | later
  · left
    rw [Traced.events_bind, List.any_append, atOnce, Bool.true_or]
  · exact Or.inr (later.bind second)

theorem stops_conj_second {first second : Plan} {n : Nat} {between : Branch}
    (element : (first.search program b).value.sight program.described n =
      some (.yield between))
    (stops : (second.search program between).Stops program.described) :
    ((Plan.conj first second).search program b).Stops program.described := by
  rw [search_conj]
  rcases Stream.stops_bind_of_sight element stops with atOnce | later
  · left
    rw [Traced.events_bind, List.any_append, Bool.or_eq_true]
    exact Or.inr atOnce
  · exact Or.inr later

theorem stops_fresh {x : Var} {s : State} (name : String) {body : Closure}
    (introduced : b.state.fresh? = some (x, s))
    (stops : (((body.withVar name x b.choices).build program).search program
      (b.withState s)).Stops program.described) :
    ((Plan.fresh name body).search program b).Stops program.described := by
  rw [search_fresh program b name body introduced]
  rcases stops with atOnce | later
  · left
    rw [Traced.events_after, List.any_cons, atOnce, Bool.or_true]
  · exact Or.inr later

theorem stops_fresh_of_none (name : String) (body : Closure)
    (used : b.state.fresh? = none) :
    ((Plan.fresh name body).search program b).Stops program.described := by
  rw [search_fresh_of_none program b name body used]
  exact Or.inl rfl

theorem stops_suspend {body : Closure}
    (stops : (((body.onBranch b.choices).build program).search program
      b).Stops program.described) :
    ((Plan.suspend body).search program b).Stops program.described := by
  rw [search_suspend]
  right
  rcases stops with atOnce | later
  · apply Stream.Stops.here
    rw [Suspension.force_task]
    exact atOnce
  · refine .later rfl ?_
    rw [Suspension.force_task]
    exact later

end Plan

namespace Goal

variable {program : Program}

/-- The search for a solution that takes more variables than there are comes
upon the shortage. -/
theorem HoldsWith.stops (plainProgram : program.isPlain = true)
    {bound : Nat} (programBelow : program.isBelow bound = true)
    {θ₀ : Valuation} {count : Nat} {goal : Goal} {values : Scope}
    (holds : HoldsWith program θ₀ count goal values)
    (plain : goal.isPlain = true) (below : goal.isBelow bound = true)
    {θ : Valuation} (agree : θ₀.AgreesBelow bound θ) {scope : Scope}
    {s : State} (fits : θ.Fits scope s) (old : bound ≤ s.counter)
    (similar : (scope.image θ).Similar values) (short : ¬ s.Supplies count)
    {scope' : Scope} (scopes : scope.Similar scope') {b : Branch}
    (states : s.Similar b.state) (allowance : Nat) (place : Place) :
    ((goal.buildWithin program allowance scope' place).search program b).Stops
      program.described := by
  induction holds generalizing θ scope s scope' b allowance place with
  | succeed => exact absurd (Or.inl rfl) short
  | always => exact absurd (Or.inl rfl) short
  | eq equal => exact absurd (Or.inl rfl) short
  | disjLeft _ inside =>
      simp only [isPlain, isBelow, every, Bool.and_eq_true] at plain below
      rw [buildWithin_disj]
      exact Plan.stops_disj (Or.inl (inside plain.1 below.1 agree fits old
        similar short scopes (b := b.choose 0) states allowance _))
  | disjRight _ inside =>
      simp only [isPlain, isBelow, every, Bool.and_eq_true] at plain below
      rw [buildWithin_disj]
      exact Plan.stops_disj (Or.inr (inside plain.2 below.2 agree fits old
        similar short scopes (b := b.choose 1) states allowance _))
  | @conj count count' first second values holdsFirst _ onFirst onSecond =>
      simp only [isPlain, isBelow, every, Bool.and_eq_true] at plain below
      rw [buildWithin_conj]
      by_cases forFirst : s.Supplies count
      · obtain ⟨between, derivation, θ₁, agree₁, fits₁, advanced⟩ :=
          holdsFirst.exists_derivation plainProgram programBelow plain.1
            below.1 agree fits old similar forFirst
        obtain ⟨shown, reached⟩ := derivation.sight_landing plainProgram
          plain.1 scopes states allowance (.part 0 place)
        have forSecond : ¬ between.Supplies count' := by
          intro enough
          exact short ((State.supplies_add_iff advanced).2 ⟨forFirst, enough⟩)
        exact Plan.stops_conj_second shown (onSecond plain.2 below.2
          (agree.trans (agree₁.mono old)) fits₁
          (Nat.le_trans old derivation.counter_le)
          (fits.similar_of_agreesBelow agree₁ similar) forSecond scopes reached
          allowance _)
      · exact Plan.stops_conj_first _ (onFirst plain.1 below.1 agree fits old
          similar forFirst scopes states allowance _)
  | @fresh count name body values value _ inside =>
      rw [buildWithin_fresh]
      cases introduced : s.fresh? with
      | none =>
          have used : b.state.fresh? = none := by
            rw [State.fresh?_eq_none_iff] at introduced ⊢
            rw [← states.counter]
            exact introduced
          exact Plan.stops_fresh_of_none name _ used
      | some pair =>
          rcases pair with ⟨x, started⟩
          obtain ⟨_, introduced', _, reached⟩ := states.fresh? introduced
          obtain ⟨agree₁, fits₁⟩ := fits.fresh introduced name value
          have similar₁ := fits.similar_of_agreesBelow agree₁ similar
          rw [State.supplies_succ_iff introduced] at short
          obtain ⟨_, rfl⟩ := State.fresh?_eq_some_iff.1 introduced
          exact Plan.stops_fresh name introduced' (inside plain below
            (agree.trans (agree₁.mono old)) fits₁ (Nat.le_succ_of_le old)
            (.cons ⟨rfl, by simp [Term.eqv_refl]⟩ similar₁) short
            (.cons ⟨rfl, Term.eqv_refl _⟩ scopes) reached program.allowance _)
  | suspend _ inside =>
      rw [buildWithin_suspend]
      exact Plan.stops_suspend (inside plain below agree fits old similar short
        scopes states program.allowance _)
  | @call count name arguments values relation found _ inside =>
      obtain ⟨fitsBody, inner⟩ :=
        fits.call relation old plain below agree similar
      have scopes' := relation.scope_build_similar plain scopes (.root 0)
        (.part 0 place)
      have onBody := inside (Program.every_body plainProgram found)
        (Program.every_body programBelow found) agree fitsBody old inner short
        scopes' states
      cases allowance with
      | zero =>
          rw [buildWithin_call_zero program scope' place arguments found]
          exact Plan.stops_suspend (onBody program.allowance _)
      | succ allowance =>
          rw [buildWithin_call program allowance scope' place arguments found]
          exact onBody allowance _
  | times positive => exact absurd (Or.inl rfl) short

/-! ### The search and the meaning of a goal -/

/-- What a search shows before the variables run out is sound: the goal holds
under every valuation that satisfies an element, up to the values of new
variables. -/
theorem holds_of_sight (plainProgram : program.isPlain = true) {goal : Goal}
    (plain : goal.isPlain = true) {s : State}
    (below : goal.isBelow s.counter = true)
    (programBelow : program.isBelow s.counter = true) {scope : Scope}
    (scopeBelow : scope.isBelow s.counter = true) {place : Place} {n : Nat}
    (calm : (goal.applyTo program scope place s).Calm program.rules n)
    {b : Branch}
    (shown : (goal.applyTo program scope place s).value.sight program.rules n =
      some (.yield b))
    {θ θ' : Valuation} (agree : θ.AgreesBelow s.counter θ')
    (satisfied : θ'.Satisfies b.state.substitution) :
    Holds program θ goal (scope.image θ) := by
  obtain ⟨s', derivation, _, reached⟩ :=
    exists_derivation_of_sight plainProgram plain calm shown
  have derived := reached.substitution.symm.satisfies satisfied
  have similar : (scope.image θ').Similar (scope.image θ) := by
    rw [Scope.image_eq_of_agreesBelow agree scopeBelow]
    exact .refl _
  obtain ⟨count, _, holds⟩ :=
    (derivation.holds plainProgram plain derived).2 similar
  exact ⟨count, holds.congr programBelow agree.symm below⟩

/-- The search that a goal describes is complete: if the goal holds and there
are variables for it, some element is satisfied, up to the values of new
variables. -/
theorem HoldsWith.exists_sight (plainProgram : program.isPlain = true)
    {goal : Goal} (plain : goal.isPlain = true) {s : State}
    (below : goal.isBelow s.counter = true)
    (programBelow : program.isBelow s.counter = true) {scope : Scope}
    {θ : Valuation} (fits : θ.Fits scope s) {count : Nat}
    (holds : HoldsWith program θ count goal (scope.image θ))
    (supplied : s.Supplies count) (place : Place) :
    ∃ n b θ', (goal.searchAt program program.allowance scope place
        (.root s)).sight program.described n = some (.yield b) ∧
      θ.AgreesBelow s.counter θ' ∧ θ'.Satisfies b.state.substitution := by
  obtain ⟨s', derivation, θ', agree, fits', _⟩ := holds.exists_derivation
    plainProgram programBelow plain below (.refl _ θ) fits (Nat.le_refl _)
    (.refl _) supplied
  have states : s.Similar (Branch.root s).state := .refl s
  obtain ⟨shown, reached⟩ := derivation.sight_landing plainProgram plain
    (.refl scope) states program.allowance place
  exact ⟨_, _, θ', shown, agree,
    reached.substitution.satisfies (fits'.satisfied θ' (.refl _ _))⟩

/-- A search is sound and complete for the meaning of its goal.  If it never
runs out of variables, a valuation of the variables handed out so far is a
solution of the goal if and only if, with suitable values for the others, it
satisfies some element of the search.  If the variables run out at some point,
then what the search has shown before is still sound, and every solution that
the variables suffice for has its place in the search that the goal describes,
where it is shown if the variables last that long. -/
theorem search_adequate (plainProgram : program.isPlain = true) {goal : Goal}
    (plain : goal.isPlain = true) {s : State}
    (built : s.substitution.Built)
    (stateBelow : s.substitution.isBelow s.counter = true)
    (below : goal.isBelow s.counter = true)
    (programBelow : program.isBelow s.counter = true) {scope : Scope}
    (scopeBelow : scope.isBelow s.counter = true) (place : Place)
    {θ : Valuation} (satisfied : θ.Satisfies s.substitution) :
    ((∀ n, (goal.applyTo program scope place s).Calm program.rules n) →
      (Holds program θ goal (scope.image θ) ↔
        ∃ n b θ', (goal.applyTo program scope place s).value.sight
            program.rules n = some (.yield b) ∧
          θ.AgreesBelow s.counter θ' ∧
          θ'.Satisfies b.state.substitution)) ∧
    (∀ n b θ', (goal.applyTo program scope place s).Calm program.rules n →
      (goal.applyTo program scope place s).value.sight program.rules n =
        some (.yield b) →
      θ.AgreesBelow s.counter θ' → θ'.Satisfies b.state.substitution →
      Holds program θ goal (scope.image θ)) ∧
    ∀ count, HoldsWith program θ count goal (scope.image θ) →
      s.Supplies count →
      ∃ n b θ', (goal.searchAt program program.allowance scope place
          (.root s)).sight program.described n = some (.yield b) ∧
        ((goal.applyTo program scope place s).Calm program.rules n →
          (goal.applyTo program scope place s).value.sight program.rules n =
            some (.yield b)) ∧
        θ.AgreesBelow s.counter θ' ∧ θ'.Satisfies b.state.substitution := by
  have fits : θ.Fits scope s :=
    ⟨built, scopeBelow, fun _ agree => satisfied.of_agreesBelow agree stateBelow⟩
  refine ⟨?_, ?_, ?_⟩
  · intro calm
    constructor
    · intro holds
      rcases holds with ⟨count, holds⟩
      by_cases supplied : s.Supplies count
      · obtain ⟨n, b, θ', shown, rest⟩ := holds.exists_sight plainProgram plain
          below programBelow fits supplied place
        refine ⟨n, b, θ', ?_, rest⟩
        rw [sight_applyTo (calm n)]
        exact shown
      · have stops := holds.stops plainProgram programBelow plain below
          (.refl _ θ) fits (Nat.le_refl _) (.refl _) supplied (.refl scope)
          (b := .root s) (.refl s) program.allowance place
        exact absurd stops (Plan.not_stops_of_calm calm)
    · intro found
      rcases found with ⟨n, b, θ', shown, agree, satisfied'⟩
      exact holds_of_sight plainProgram plain below programBelow scopeBelow
        (calm n) shown agree satisfied'
  · intro n b θ' calm shown agree satisfied'
    exact holds_of_sight plainProgram plain below programBelow scopeBelow calm
      shown agree satisfied'
  · intro count holds supplied
    obtain ⟨n, b, θ', shown, rest⟩ := holds.exists_sight plainProgram plain
      below programBelow fits supplied place
    refine ⟨n, b, θ', shown, ?_, rest⟩
    intro calm
    rw [sight_applyTo calm]
    exact shown

/-- A new variable can take the value of another one, whatever it is. -/
theorem search_adequate_copy :
    ∃ n b θ', ((Goal.fresh "x" (.eq (.var ⟨0, by decide⟩) (.name "x"))).applyTo
        [] [] (.root 0) ⟨.empty, 1⟩).value.sight (Program.rules []) n =
          some (.yield b) ∧
      Valuation.AgreesBelow 1 (fun _ => .nil) θ' ∧
      θ'.Satisfies b.state.substitution := by
  have searched : ((Goal.fresh "x" (.eq (.var ⟨0, by decide⟩)
      (.name "x"))).build [] [] (.root 0)).search [] (.root ⟨.empty, 1⟩) =
        .after (.introduced ⟨1, by decide⟩) (Branch.equate
          (.var ⟨0, by decide⟩) (.var ⟨1, by decide⟩) ⟨⟨.empty, 2⟩, []⟩) := by
    have introduced : (Branch.root ⟨.empty, 1⟩).state.fresh? =
        some (⟨1, by decide⟩, ⟨.empty, 2⟩) :=
      State.fresh?_eq_some_iff.2 ⟨rfl, rfl⟩
    rw [build, buildWithin_fresh, Plan.search_fresh [] _ "x" _ introduced]
    exact congrArg _ (Plan.search_eq ..)
  have quiet := Machine.equate_calm (.var ⟨0, by decide⟩) (.var ⟨1, by decide⟩)
    ⟨⟨.empty, 2⟩, []⟩
  have applied := Plan.apply_eq_search (b := .root ⟨.empty, 1⟩)
    (by rw [searched]; exact quiet)
  have calm : ∀ n, ((Goal.fresh "x" (.eq (.var ⟨0, by decide⟩)
      (.name "x"))).applyTo [] [] (.root 0) ⟨.empty, 1⟩).Calm
        (Program.rules []) n := by
    rw [applyTo, applied, searched]
    refine Traced.calm_of_finite quiet ?_
    rw [Traced.value_after, Branch.equate]
    split <;> rfl
  have adequate := @search_adequate [] rfl
    (.fresh "x" (.eq (.var ⟨0, by decide⟩) (.name "x"))) rfl ⟨.empty, 1⟩
    .empty rfl (by decide) rfl [] rfl (.root 0) (fun _ => .nil) (by simp)
  exact (adequate.1 calm).1 ⟨1, .fresh .nil (.eq rfl)⟩

end Goal

end Relational
