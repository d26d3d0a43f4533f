/-
Module: Relational.Proofs.QueryNumbering
Purpose: The answers of a query do not depend on the counter at which its
  variables are introduced.
Main exports: Renumbering.exists_of_le, Goal.rename_of_isBelow,
  Query.goal_rename, Query.runFrom_renumbered, Goal.search_equivariant
-/
import Mathlib.Computability.Primrec.List
import Relational.Proofs.Commutation
import Relational.Proofs.Renumbering
import Relational.Query

namespace Relational

/-!
A query mentions no variable that is introduced after it was written down, so a
renumbering that keeps the older variables leaves its goals and the relations as
they are.  Between any two counters there is such a renumbering.  Reification
numbers what is left unbound anew, so nothing of the renumbering is left in the
answers.
-/

variable {ρ : Renumbering}

/-- Any two counters ahead of some variables belong to a renumbering that keeps
these variables. -/
theorem Renumbering.exists_of_le {bound start target : Nat}
    (startAhead : bound ≤ start) (targetAhead : bound ≤ target) :
    ∃ ρ : Renumbering, ρ.start = start ∧ ρ.target = target ∧
      Var.FixesBelow bound ρ.map := by
  -- The variables from the bound on are turned round like a wheel, so that the
  -- two counters come to lie on each other.
  have turned : ∃ map : Var ≃ Var, Var.FixesBelow bound map ∧
      ∀ (x y : Var) (index : Nat), x.id = start + index →
        y.id = target + index → map x = y := by
    by_cases within : bound + (target - start) + (start - target) ≤ Var.capacity
    · by_cases forward : start ≤ target
      · refine ⟨Var.exchange bound (Var.capacity - bound - (target - start))
          (target - start) (by omega),
          fun x below => Var.ext (if_pos below), ?_⟩
        intro x y index sameId sameId'
        have inRange := y.inRange
        refine Var.ext ?_
        simp only [Var.exchange, Equiv.coe_fn_mk, Var.exchangeId]
        split_ifs <;> omega
      · refine ⟨Var.exchange bound (start - target)
          (Var.capacity - bound - (start - target)) (by omega),
          fun x below => Var.ext (if_pos below), ?_⟩
        intro x y index sameId sameId'
        have inRange := x.inRange
        refine Var.ext ?_
        simp only [Var.exchange, Equiv.coe_fn_mk, Var.exchangeId]
        split_ifs <;> omega
    · refine ⟨Equiv.refl Var, fun _ _ => rfl, ?_⟩
      intro x y index sameId sameId'
      have inRange := x.inRange
      have inRange' := y.inRange
      omega
  obtain ⟨map, fixes, shifts⟩ := turned
  exact ⟨⟨start, target, map, map.injective, shifts⟩, rfl, rfl, fixes⟩

section

variable {bound : Nat} {map : Var → Var} (fixes : Var.FixesBelow bound map)

include fixes

theorem Expr.rename_of_isBelow {expr : Expr}
    (below : expr.isBelow bound = true) : expr.rename map = expr := by
  induction expr with
  | value v => rfl
  | var x =>
      have less : x.id < bound := by simpa [isBelow] using below
      rw [rename, fixes x less]
  | name n => rfl
  | pair first second onFirst onSecond =>
      simp only [isBelow, Bool.and_eq_true] at below
      rw [rename, onFirst below.1, onSecond below.2]
  | term t => rw [rename, Term.rename_of_isBelow fixes below]
  | copies count item onItem => rw [rename, onItem below]
  | nested depth item onItem => rw [rename, onItem below]

theorem Goal.rename_of_isBelow {goal : Goal}
    (below : goal.isBelow bound = true) : goal.rename map = goal := by
  induction goal with
  | eq left right =>
      simp only [isBelow, every, Bool.and_eq_true] at below
      rw [rename, Expr.rename_of_isBelow fixes below.1,
        Expr.rename_of_isBelow fixes below.2]
  | disj left right onLeft onRight =>
      simp only [isBelow, every, Bool.and_eq_true] at below
      rw [rename, onLeft below.1, onRight below.2]
  | conj first second onFirst onSecond =>
      simp only [isBelow, every, Bool.and_eq_true] at below
      rw [rename, onFirst below.1, onSecond below.2]
  | fresh name body onBody => rw [rename, onBody below]
  | suspend body onBody => rw [rename, onBody below]
  | call name arguments =>
      have unchanged : ∀ argument ∈ arguments, argument.rename map = argument :=
        fun argument member => Expr.rename_of_isBelow fixes
          (List.all_eq_true.1 below argument member)
      rw [rename, List.map_congr_left unchanged, List.map_id']
  | _ => rfl

theorem Program.rename_of_isBelow {program : Program}
    (below : program.isBelow bound = true) : program.rename map = program := by
  have unchanged : ∀ entry ∈ program,
      (entry.1, entry.2.rename map) = entry := by
    intro entry member
    have body := Goal.rename_of_isBelow fixes
      (List.all_eq_true.1 below entry member)
    rw [Relation.rename, body]
  exact (List.map_congr_left unchanged).trans (List.map_id' program)

theorem Substitution.rename_of_isBelow {s : Substitution}
    (below : s.isBelow bound = true) : s.rename map = s := by
  have unchanged : ∀ mapping ∈ s.mappings, mapping.rename map = mapping := by
    intro mapping member
    have both :=
      Bool.and_eq_true_iff.1 (List.all_eq_true.1 below mapping member)
    rw [Mapping.rename, fixes _ (of_decide_eq_true both.1),
      Term.rename_of_isBelow fixes both.2]
  exact Substitution.ext
    ((List.map_congr_left unchanged).trans (List.map_id' _))

end

namespace Goal

theorem conjAll_rename (map : Var → Var) (goals : List Goal) :
    (conjAll goals).rename map = conjAll (goals.map (rename map)) :=
  apply_joinAll (rename map) rfl (fun _ _ => rfl) goals

theorem freshAll_rename (map : Var → Var) (names : List String) (body : Goal) :
    (freshAll names body).rename map = freshAll names (body.rename map) := by
  induction names with
  | nil => rfl
  | cons name names onNames => exact congrArg (Goal.fresh name) onNames

end Goal

/-- A list of names mentions no variable. -/
theorem Expr.nameList_rename (map : Var → Var) (names : List String) :
    (nameList names).rename map = nameList names := by
  induction names with
  | nil => rfl
  | cons name names onNames => exact congrArg (Expr.pair (.name name)) onNames

theorem Harvest.map_map {α β γ : Type} (f : α → β) (g : β → γ)
    (harvest : Harvest α) : (harvest.map f).map g = harvest.map (g ∘ f) := by
  rw [map, map, map, List.map_map]

/-- What a run returns are the states of the branches collected from its
search, unless the search had to be broken off. -/
theorem Program.value_run {program : Program} {fuel : Nat} {demand : Demand}
    {plan : Plan} {s : State}
    (running : (program.run fuel demand plan s).value.ending ≠ .stopped) :
    (plan.apply program (.root s)).events.any Event.isFatal = false ∧
      (program.run fuel demand plan s).value =
        ((plan.apply program (.root s)).value.collect program.rules fuel
          demand).value.map Branch.state := by
  obtain ⟨calm, collecting⟩ := running_of_run running
  exact ⟨calm, congrArg Traced.value (run_eq_outcome calm collecting)⟩

namespace Query

variable {program : Program} {query : Query} {outer : Scope} {place : Place}

/-- The goal of a query with another query variable is the renamed one. -/
theorem goal_rename {bound : Nat} (fixes : Var.FixesBelow bound ρ.map)
    (below : query.goals.all (Goal.isBelow bound) = true) {q q' : Var}
    (renamed : ρ.map q = q') :
    (query.goal q).rename ρ.map = query.goal q' := by
  obtain ⟨wanted, goals⟩ := query
  have goalsFixed : goals.map (Goal.rename ρ.map) = goals :=
    (List.map_congr_left fun goal member => Goal.rename_of_isBelow fixes
      (List.all_eq_true.1 below goal member)).trans (List.map_id' goals)
  cases wanted with
  | one name =>
      exact (Goal.conjAll_rename ρ.map goals).trans
        (congrArg Goal.conjAll goalsFixed)
  | several names =>
      simp only [goal, Goal.freshAll_rename, Goal.conjAll_rename,
        List.map_cons, goalsFixed, Goal.rename, Expr.nameList_rename, Expr.rename,
        renamed]

theorem scope_rename {bound : Nat} (fixes : Var.FixesBelow bound ρ.map)
    (below : outer.isBelow bound = true) (query : Query) {q q' : Var}
    (renamed : ρ.map q = q') :
    (query.scope outer q).rename ρ.map = query.scope outer q' := by
  have outers := Scope.rename_of_isBelow fixes below
  rw [scope, scope]
  split
  · exact congrArg₂ (fun x older => (_, Term.var x) :: older) renamed outers
  · exact outers

section

variable {bound : Nat} {substitution : Substitution} {fuel : Nat}
  {demand : Demand} (programBelow : program.isBelow bound = true)
  (goalsBelow : query.goals.all (Goal.isBelow bound) = true)
  (outerBelow : outer.isBelow bound = true)
  (below : substitution.isBelow bound = true)

include programBelow goalsBelow outerBelow below

/-- What is found for a query variable does not depend on which variable it
is. -/
theorem run_renumbered {q q' : Var} (ahead : bound ≤ q.id)
    (ahead' : bound ≤ q'.id)
    (running : (program.run fuel demand
      ((query.goal q).build program (query.scope outer q) place)
      ⟨substitution, q.id + 1⟩).value.ending ≠ .stopped)
    (running' : (program.run fuel demand
      ((query.goal q').build program (query.scope outer q') place)
      ⟨substitution, q'.id + 1⟩).value.ending ≠ .stopped) :
    (program.run fuel demand
        ((query.goal q').build program (query.scope outer q') place)
        ⟨substitution, q'.id + 1⟩).value.map (fun s => s.reify (.var q')) =
      (program.run fuel demand
        ((query.goal q).build program (query.scope outer q) place)
        ⟨substitution, q.id + 1⟩).value.map fun s => s.reify (.var q) := by
  obtain ⟨ρ, starts, targets, fixes⟩ := Renumbering.exists_of_le ahead ahead'
  obtain ⟨calm, collected⟩ := Program.value_run running
  obtain ⟨calm', collected'⟩ := Program.value_run running'
  have renamed : ρ.map q = q' := ρ.shifts q q' 0 starts.symm targets.symm
  have goals : (query.goal q).rename ρ.map = query.goal q' :=
    goal_rename fixes goalsBelow renamed
  have scopes := scope_rename fixes outerBelow query renamed
  have programs := Program.rename_of_isBelow fixes programBelow
  have states : State.Renumbered ρ ⟨substitution, q.id + 1⟩
      ⟨substitution, q'.id + 1⟩ :=
    ⟨(Substitution.rename_of_isBelow fixes below).symm, 1, by rw [starts],
      by rw [targets]⟩
  have applied := Goal.applyTo_renumbered states program (query.goal q)
    (query.scope outer q) place
  rw [goals, scopes, programs] at applied
  rw [collected] at running ⊢
  rw [collected'] at running' ⊢
  have same : ∀ b b' : Branch, b.Renumbered ρ b' →
      b'.state.reify (.var q') = b.state.reify (.var q) := by
    intro b b' branches
    rw [← branches.state.reify, Term.rename_var, renamed]
  have harvested := Stream.Renumbered.collectFrom same (applied calm calm').1
    demand rfl rfl rfl running (by rw [programs]; exact running')
  rw [programs] at harvested
  rw [Harvest.map_map, Harvest.map_map]
  exact harvested

/-- What a query returns does not depend on where it begins to hand out
variables. -/
theorem runFrom_renumbered {counter counter' : Nat} (ahead : bound ≤ counter)
    (ahead' : bound ≤ counter')
    (running : (query.runFrom program fuel demand outer place
      ⟨substitution, counter⟩).value.ending ≠ .stopped)
    (running' : (query.runFrom program fuel demand outer place
      ⟨substitution, counter'⟩).value.ending ≠ .stopped) :
    (query.runFrom program fuel demand outer place
        ⟨substitution, counter'⟩).value =
      (query.runFrom program fuel demand outer place
        ⟨substitution, counter⟩).value := by
  rw [runFrom] at running running'
  rw [runFrom, runFrom]
  cases introduced : (⟨substitution, counter⟩ : State).fresh? with
  | none =>
      rw [introduced] at running
      exact absurd rfl running
  | some pair =>
      cases introduced' : (⟨substitution, counter'⟩ : State).fresh? with
      | none =>
          rw [introduced'] at running'
          exact absurd rfl running'
      | some pair' =>
          rcases pair with ⟨q, s⟩
          rcases pair' with ⟨q', s'⟩
          rw [introduced] at running
          rw [introduced'] at running'
          obtain ⟨rfl, rfl⟩ := State.fresh?_eq_some_iff.1 introduced
          obtain ⟨rfl, rfl⟩ := State.fresh?_eq_some_iff.1 introduced'
          exact run_renumbered programBelow goalsBelow outerBelow below ahead
            ahead' running running'

end

end Query

namespace Goal

/-- A search from a renamed state, with the goal and the relations renamed, is
in step with the search itself: at every position both are suspended or both
have ended, or they show states that belong together, and the events reported
until then are the renamed ones.  This goes on until the variables run out in
one of the two.  States that belong together give the same answers, and renaming
goes through unification, whether it succeeds or fails.  So the answers of a
query are the same at whatever counter its variable is introduced. -/
theorem search_equivariant (ρ : Renumbering) {s s' : State}
    (states : s.Renumbered ρ s') (program : Program) (goal : Goal)
    (scope : Scope) (place : Place) :
    (∀ n, (goal.applyTo program scope place s).Calm program.rules n →
      ((goal.rename ρ.map).applyTo (program.rename ρ.map)
        (scope.rename ρ.map) place s').Calm (program.rename ρ.map).rules n →
      Option.Rel (Sight.Related (Branch.Renumbered ρ))
        ((goal.applyTo program scope place s).value.sight program.rules n)
        (((goal.rename ρ.map).applyTo (program.rename ρ.map)
          (scope.rename ρ.map) place s').value.sight
            (program.rename ρ.map).rules n) ∧
      ((goal.rename ρ.map).applyTo (program.rename ρ.map)
          (scope.rename ρ.map) place s').events ++
        ((goal.rename ρ.map).applyTo (program.rename ρ.map)
          (scope.rename ρ.map) place s').value.reports
            (program.rename ρ.map).rules n =
      ((goal.applyTo program scope place s).events ++
        (goal.applyTo program scope place s).value.reports program.rules n).map
          (Event.rename ρ.map)) ∧
    (∀ (b b' : Branch) (term : Term), b.Renumbered ρ b' →
      b'.state.reify (term.rename ρ.map) = b.state.reify term) ∧
    (∀ map : Var → Var, Function.Injective map →
      ∀ (substitution : Substitution) (left right : Term),
        (substitution.rename map).unify (left.rename map) (right.rename map) =
          ((substitution.unify left right).map
            (Substitution.rename map)).mapError (Failure.rename map)) ∧
    ∀ (query : Query) (outer : Scope) (substitution : Substitution)
      (bound counter counter' fuel : Nat) (demand : Demand),
      program.isBelow bound = true →
      query.goals.all (isBelow bound) = true → outer.isBelow bound = true →
      substitution.isBelow bound = true → bound ≤ counter → bound ≤ counter' →
      (query.runFrom program fuel demand outer place
        ⟨substitution, counter⟩).value.ending ≠ .stopped →
      (query.runFrom program fuel demand outer place
        ⟨substitution, counter'⟩).value.ending ≠ .stopped →
      (query.runFrom program fuel demand outer place
          ⟨substitution, counter'⟩).value =
        (query.runFrom program fuel demand outer place
          ⟨substitution, counter⟩).value := by
  refine ⟨?_, ?_, ?_, ?_⟩
  · intro n calm calm'
    rw [Traced.Calm, List.any_append, Bool.or_eq_false_iff] at calm calm'
    obtain ⟨values, reported⟩ :=
      applyTo_renumbered states program goal scope place calm.1 calm'.1
    obtain ⟨seen, reportedLater⟩ := values.sight calm.2 calm'.2
    exact ⟨seen, by rw [reported, reportedLater, List.map_append]⟩
  · exact fun b b' term branches => branches.state.reify term
  · exact fun map injective => Substitution.unify_rename injective
  · intro query outer substitution bound counter counter' fuel demand
      programBelow goalsBelow outerBelow below ahead ahead' running running'
    exact Query.runFrom_renumbered programBelow goalsBelow outerBelow below
      ahead ahead' running running'

/-- All variables are moved on by one, and so is the variable that is introduced
behind a suspension.  A query has the same answer from the counters 0 and 5. -/
theorem search_equivariant_shifted :
    (∃ (ρ : Renumbering) (x : Var) (b b' : Branch),
      ρ.start = 1 ∧ ρ.target = 2 ∧ (ρ.map x).id = x.id + 1 ∧
      ((Goal.suspend (.fresh "y" (.eq (.name "y") (.var x)))).applyTo [] []
        (.root 0) ⟨Substitution.empty.prepend ⟨x, .nil⟩, 1⟩).value.sight
          (Program.rules []) 1 = some (.yield b) ∧
      ((Goal.suspend (.fresh "y" (.eq (.name "y") (.var (ρ.map x))))).applyTo
        [] [] (.root 0)
        ⟨Substitution.empty.prepend ⟨ρ.map x, .nil⟩, 2⟩).value.sight
          (Program.rules []) 1 = some (.yield b') ∧
      b.Renumbered ρ b') ∧
    ∃ query : Query,
      (query.runFrom [] 3 .all [] (.root 0) ⟨.empty, 5⟩).value.items =
        (query.runFrom [] 3 .all [] (.root 0) ⟨.empty, 0⟩).value.items ∧
      (query.runFrom [] 3 .all [] (.root 0) ⟨.empty, 0⟩).value.items =
        [.reified 0] := by
  let ρ : Renumbering :=
    { start := 1
      target := 2
      map := Var.exchange 0 (Var.capacity - 1) 1 (by decide)
      injective := Equiv.injective _
      shifts := by
        intro x y index sameId sameId'
        have inRange := y.inRange
        refine Var.ext ?_
        simp only [Var.exchange, Equiv.coe_fn_mk, Var.exchangeId]
        split_ifs <;> omega }
  let x : Var := ⟨0, by decide⟩
  let goal : Goal := .suspend (.fresh "y" (.eq (.name "y") (.var x)))
  let s : State := ⟨Substitution.empty.prepend ⟨x, .nil⟩, 1⟩
  let s' : State := ⟨Substitution.empty.prepend ⟨ρ.map x, .nil⟩, 2⟩
  have states : s.Renumbered ρ s' := ⟨rfl, 0, rfl, rfl⟩
  have calm : (goal.applyTo [] [] (.root 0) s).Calm (Program.rules []) 1 := by
    cbv
  have calm' : ((goal.rename ρ.map).applyTo (Program.rename ρ.map [])
      (Scope.rename ρ.map []) (.root 0) s').Calm
        (Program.rename ρ.map []).rules 1 := by
    cbv
  obtain ⟨inStep, _, _, queries⟩ :=
    search_equivariant ρ states [] goal [] (.root 0)
  have seen := (inStep 1 calm calm').1
  have shown : (goal.applyTo [] [] (.root 0) s).value.sight (Program.rules []) 1
      = some (.yield (.root ⟨s.substitution.prepend ⟨⟨1, by decide⟩, .nil⟩,
        2⟩)) := by
    cbv
  let query : Query :=
    ⟨.one "q", [.fresh "y" (.eq (.name "q") (.name "y"))]⟩
  have sameAnswers := queries query [] .empty 0 0 5 3 .all rfl rfl rfl rfl
    (Nat.le_refl _) (Nat.zero_le _) (by cbv; decide) (by cbv; decide)
  refine ⟨?_, query, congrArg Harvest.items sameAnswers, by cbv⟩
  rw [shown] at seen
  generalize shown' : Stream.sight _ _ 1 = sight' at seen
  cases seen with
  | some both =>
      cases both with
      | yield branches =>
          exact ⟨ρ, x, _, _, rfl, rfl, by decide, shown, shown', branches⟩

end Goal

end Relational
