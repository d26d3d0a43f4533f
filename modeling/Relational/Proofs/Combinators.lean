/-
Module: Relational.Proofs.Combinators
Purpose: Goals as continuations that can be combined, and what a disjunction of
  many of them searches.
Main exports: Stream.mergeAll, Rules.Combinators, Rules.Combinators.starts,
  Rules.Combinators.search_disjAll, Composite, Program.combinators, Goal.plans,
  Goal.build_conjAll, Goal.build_disjAll
-/
import Relational.Goal.Run

namespace Relational

/-!
What a conjunction or disjunction does depends on the searches of its parts
only, and these may be any functions from elements to streams.  So what is said
of combined goals is said of such functions.  Plans are one case.  There the
branches of a disjunction are told apart by the choices that led to them, so an
alternative starts from the same state on a branch of its own.
-/

variable {ε ι κ α : Type}

/-- Merges streams, the first one with the merge of the others. -/
def Stream.mergeAll : List (Stream ι κ α) → Stream ι κ α :=
  joinAll .nil merge

section

variable {rules : Rules ε ι κ α}

/-- Goals are continuations that can be combined.  Applying a goal gives its
search, which is broken off at a fatal event. -/
structure Rules.Combinators (rules : Rules ε ι κ α) where
  search : κ → α → Traced ε (Stream ι κ α)
  succeed : κ
  fail : κ
  conj : κ → κ → κ
  disj : κ → κ → κ
  /-- Where the left and the right alternative of a disjunction start. -/
  side : Nat → α → α
  apply_eq : ∀ goal a,
    rules.apply goal a = (search goal a).stopAt rules.isFatal .nil
  search_succeed : ∀ a, search succeed a = .pure (.singleton a)
  search_fail : ∀ a, search fail a = .pure .nil
  search_conj : ∀ first second a, search (conj first second) a =
    (search first a).bind fun found => found.bindWith (search second) second
  search_disj : ∀ left right a, search (disj left right) a =
    (search left (side 0 a)).bind fun found =>
      (search right (side 1 a)).map found.merge

namespace Rules.Combinators

variable (combinators : rules.Combinators)

/-- The conjunction of a list of goals. -/
def conjAll : List κ → κ := joinAll combinators.succeed combinators.conj

/-- The disjunction of a list of goals. -/
def disjAll : List κ → κ := joinAll combinators.fail combinators.disj

/-- The goals of a disjunction, each with the element that it starts from. -/
def starts : List κ → α → List (κ × α)
  | [], _ => []
  | [last], a => [(last, a)]
  | goal :: rest, a =>
    (goal, combinators.side 0 a) :: starts rest (combinators.side 1 a)

theorem starts_ne_nil {goals : List κ} {a : α} (several : goals ≠ []) :
    combinators.starts goals a ≠ [] := by
  fun_cases combinators.starts goals a with
  | case1 => exact absurd rfl several
  | case2 => exact List.cons_ne_nil _ _
  | case3 => exact List.cons_ne_nil _ _

/-- If both alternatives of a disjunction start where it starts, so do many. -/
theorem starts_eq_map (unmarked : ∀ index a, combinators.side index a = a)
    (goals : List κ) (a : α) :
    combinators.starts goals a = goals.map fun goal => (goal, a) := by
  fun_induction combinators.starts goals a with
  | case1 => rfl
  | case2 => rfl
  | case3 goal rest a several onRest =>
      rw [unmarked] at onRest
      rw [unmarked, unmarked, onRest, List.map_cons]

/-- The search of a disjunction merges those of its goals. -/
theorem search_disjAll (goals : List κ) (a : α) :
    combinators.search (combinators.disjAll goals) a =
      (Traced.sequence ((combinators.starts goals a).map fun start =>
        combinators.search start.1 start.2)).map Stream.mergeAll := by
  fun_induction combinators.starts goals a with
  | case1 a => exact combinators.search_fail a
  | case2 last a =>
      rw [List.map_singleton, Traced.sequence_cons]
      exact congrArg (Traced.mk _) (List.append_nil _).symm
  | case3 goal rest a several onRest =>
      have others : ((combinators.starts rest (combinators.side 1 a)).map
          fun start => combinators.search start.1 start.2).map
            Traced.value ≠ [] := by
        simpa using combinators.starts_ne_nil several
      rw [disjAll] at onRest
      rw [disjAll, joinAll_cons _ _ _ several, combinators.search_disj, onRest,
        List.map_cons, Traced.sequence_cons]
      exact congrArg (Traced.mk · _)
        (joinAll_cons Stream.nil Stream.merge _ others).symm

/-- Where a disjunction can be applied, all its goals can, and its stream merges
theirs. -/
theorem value_apply_disjAll {goals : List κ} {a : α}
    (calm : (rules.apply (combinators.disjAll goals) a).events.any
      rules.isFatal = false) :
    (rules.apply (combinators.disjAll goals) a).value =
      Stream.mergeAll ((combinators.starts goals a).map fun start =>
        (rules.apply start.1 start.2).value) := by
  rw [combinators.apply_eq] at calm ⊢
  rw [Traced.stopAt_eq_self_of_stopAt calm, search_disjAll, Traced.value_map,
    Traced.value_sequence, List.map_map]
  rw [Traced.any_stopAt, search_disjAll, Traced.events_map,
    Traced.events_sequence, List.flatMap_map, List.any_flatMap,
    List.any_eq_false] at calm
  congr 1
  apply List.map_congr_left
  intro start member
  have quiet := calm start member
  rw [Bool.not_eq_true] at quiet
  rw [combinators.apply_eq, Traced.stopAt_eq_self quiet]
  rfl

end Rules.Combinators

end

/-! ### Any functions as goals -/

/-- A goal that is combined of given ones. -/
inductive Composite (γ : Type) where
  | given (goal : γ)
  | succeed
  | fail
  | conj (first second : Composite γ)
  | disj (left right : Composite γ)

namespace Composite

variable {γ : Type} (given : γ → α → Traced ε (Stream ι (Composite γ) α))
  (run : ι → Traced ε (Stream ι (Composite γ) α)) (isFatal : ε → Bool)

/-- The search of a composite goal.  A given goal is any function to streams. -/
def search : Composite γ → α → Traced ε (Stream ι (Composite γ) α)
  | .given goal, a => given goal a
  | .succeed, a => .pure (.singleton a)
  | .fail, _ => .pure .nil
  | .conj first second, a =>
    (first.search a).bind fun found => found.bindWith second.search second
  | .disj left right, a =>
    (left.search a).bind fun found => (right.search a).map found.merge

/-- Rules under which composite goals are applied. -/
def rules : Rules ε ι (Composite γ) α where
  run := run
  apply goal a := (goal.search given a).stopAt isFatal .nil
  isFatal := isFatal

/-- Composite goals have their combinators, and all alternatives start where the
disjunction starts. -/
def combinators : (rules given run isFatal).Combinators where
  search := search given
  succeed := .succeed
  fail := .fail
  conj := .conj
  disj := .disj
  side _ a := a
  apply_eq _ _ := rfl
  search_succeed _ := rfl
  search_fail _ := rfl
  search_conj _ _ _ := rfl
  search_disj _ _ _ := rfl

end Composite

/-! ### Plans -/

/-- Plans have their combinators, and an alternative starts on a branch of its
own. -/
def Program.combinators (program : Program) : program.rules.Combinators where
  search plan := plan.search program
  succeed := .succeed
  fail := .fail
  conj := .conj
  disj := .disj
  side := Branch.choose
  apply_eq := Plan.apply_eq_stopAt program
  search_succeed := Plan.search_succeed program
  search_fail := Plan.search_fail program
  search_conj first second b := Plan.search_conj program b first second
  search_disj left right b := Plan.search_disj program b left right

namespace Goal

variable {program : Program} {scope : Scope}

/-- The plans of a list of goals, as they are built for a conjunction or
disjunction of them. -/
def plans (program : Program) (scope : Scope) : List Goal → Place → List Plan
  | [], _ => []
  | [last], place => [last.build program scope place]
  | goal :: rest, place =>
    goal.build program scope (.part 0 place) ::
      plans program scope rest (.part 1 place)

theorem plans_ne_nil {goals : List Goal} {place : Place}
    (several : goals ≠ []) : plans program scope goals place ≠ [] := by
  fun_cases plans program scope goals place with
  | case1 => exact absurd rfl several
  | case2 => exact List.cons_ne_nil _ _
  | case3 => exact List.cons_ne_nil _ _

/-- Joined goals are built part by part. -/
theorem build_joinAll {unit : Goal} {unit' : Plan} {join : Goal → Goal → Goal}
    {join' : Plan → Plan → Plan}
    (units : ∀ place, unit.build program scope place = unit')
    (joins : ∀ first rest place, (join first rest).build program scope place =
      join' (first.build program scope (.part 0 place))
        (rest.build program scope (.part 1 place)))
    (goals : List Goal) (place : Place) :
    (joinAll unit join goals).build program scope place =
      joinAll unit' join' (plans program scope goals place) := by
  fun_induction plans program scope goals place with
  | case1 place => exact units place
  | case2 last place => rfl
  | case3 goal rest place several onRest =>
      rw [joinAll_cons _ _ _ several, joins, onRest,
        joinAll_cons _ _ _ (plans_ne_nil several)]

theorem build_conjAll (goals : List Goal) (place : Place) :
    (conjAll goals).build program scope place =
      program.combinators.conjAll (plans program scope goals place) :=
  build_joinAll (buildWithin_succeed program _ scope)
    (fun first rest place => buildWithin_conj program _ scope place first rest)
    goals place

theorem build_disjAll (goals : List Goal) (place : Place) :
    (disjAll goals).build program scope place =
      program.combinators.disjAll (plans program scope goals place) :=
  build_joinAll (buildWithin_fail program _ scope)
    (fun first rest place => buildWithin_disj program _ scope place first rest)
    goals place

end Goal

end Relational
