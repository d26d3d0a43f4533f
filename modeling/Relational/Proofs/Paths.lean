/-
Module: Relational.Proofs.Paths
Purpose: The choices of a derivation, apart from the states it goes through.
Main exports: Goal.Path, Goal.Path.count, Goal.Path.equations,
  Goal.Derivation.path, Goal.Derivation.unifyAll_path,
  Goal.Path.exists_derivation, Goal.Derivation.path_injective,
  Goal.Path.equations_rename
-/
import Relational.Proofs.Adequacy
import Relational.Proofs.EquationOrder

namespace Relational

/-!
A derivation records choices, and it goes through states.  The choices alone
form a path.  A path says which equations are met and how many variables are
introduced, and it does so without knowing what the variables are: they are
supplied from outside.  There is a derivation along a path from a state if and
only if the state has the variables and its substitution can be extended to
solve the equations, and then there is only one.

So derivations from different states, with other variables, can be compared by
their equations.
-/

/-- The ways in which a goal can hold. -/
inductive Goal.Path (program : Program) : Goal → Type where
  | succeed : Path program .succeed
  | always (unfolded : Path program (.suspend (.disj .succeed .always))) :
      Path program .always
  | eq {left right : Expr} : Path program (.eq left right)
  | disjLeft {left right : Goal} (onLeft : Path program left) :
      Path program (.disj left right)
  | disjRight {left right : Goal} (onRight : Path program right) :
      Path program (.disj left right)
  | conj {first second : Goal} (onFirst : Path program first)
      (onSecond : Path program second) : Path program (.conj first second)
  | fresh {name : String} {body : Goal} (inside : Path program body) :
      Path program (.fresh name body)
  | suspend {body : Goal} (inside : Path program body) :
      Path program (.suspend body)
  | call {name : String} {arguments : List Expr} (relation : Relation)
      (found : program.find? name = some relation)
      (inside : Path program relation.body) :
      Path program (.call name arguments)
  | times {count : Nat} (index : Fin count) : Path program (.times count)

namespace Goal.Path

variable {program : Program}

/-- How many variables are introduced along the path. -/
def count : {goal : Goal} → Path program goal → Nat
  | _, .succeed => 0
  | _, .always unfolded => unfolded.count
  | _, .eq => 0
  | _, .disjLeft onLeft => onLeft.count
  | _, .disjRight onRight => onRight.count
  | _, .conj onFirst onSecond => onFirst.count + onSecond.count
  | _, .fresh inside => inside.count + 1
  | _, .suspend inside => inside.count
  | _, .call _ _ inside => inside.count
  | _, .times _ => 0

/-- The equations that are met along the path, in order.  New variables are
taken from the supply one after the other. -/
def equations : {goal : Goal} → Path program goal → Scope → (Nat → Var) →
    List (Term × Term)
  | _, .succeed, _, _ => []
  | _, .always unfolded, _, supply => unfolded.equations [] supply
  | .eq left right, .eq, scope, _ =>
    [(left.build scope (.root 0), right.build scope (.root 1))]
  | _, .disjLeft onLeft, scope, supply => onLeft.equations scope supply
  | _, .disjRight onRight, scope, supply => onRight.equations scope supply
  | _, .conj onFirst onSecond, scope, supply =>
    onFirst.equations scope supply ++
      onSecond.equations scope fun index => supply (onFirst.count + index)
  | .fresh name _, .fresh inside, scope, supply =>
    inside.equations ((name, .var (supply 0)) :: scope)
      fun index => supply (index + 1)
  | _, .suspend inside, scope, supply => inside.equations scope supply
  | .call _ arguments, .call relation _ inside, scope, supply =>
    inside.equations
      (relation.scope (buildArguments scope (.root 0) arguments)) supply
  | _, .times _, _, _ => []

end Goal.Path

/-! ### The variables that a state hands out -/

/-- The variables from a counter on.  Where there are no more variables it does
not matter what comes. -/
def Var.upcoming (counter index : Nat) : Var :=
  (ofNat? (counter + index)).getD ⟨0, Nat.succ_pos _⟩

namespace Var

theorem upcoming_eq {counter index : Nat} {x : Var}
    (sameId : x.id = counter + index) : upcoming counter index = x := by
  rw [upcoming, ← sameId, ofNat?_id, Option.getD_some]

theorem upcoming_add (counter count : Nat) :
    (fun index => upcoming counter (count + index)) =
      upcoming (counter + count) := by
  funext index
  rw [upcoming, upcoming, Nat.add_assoc]

theorem upcoming_succ (counter : Nat) :
    (fun index => upcoming counter (index + 1)) = upcoming (counter + 1) := by
  funext index
  rw [upcoming, upcoming, Nat.add_assoc, Nat.add_comm 1]

end Var

namespace Goal.Derivation

variable {program : Program} {goal : Goal} {scope : Scope} {s s' : State}

/-- The choices of a derivation. -/
def path : {goal : Goal} → {scope : Scope} → {s s' : State} →
    Derivation program goal scope s s' → Path program goal
  | _, _, _, _, .succeed => .succeed
  | _, _, _, _, .always unfolded => .always unfolded.path
  | _, _, _, _, .eq _ => .eq
  | _, _, _, _, .disjLeft onLeft => .disjLeft onLeft.path
  | _, _, _, _, .disjRight onRight => .disjRight onRight.path
  | _, _, _, _, .conj onFirst onSecond => .conj onFirst.path onSecond.path
  | _, _, _, _, .fresh _ _ inside => .fresh inside.path
  | _, _, _, _, .suspend inside => .suspend inside.path
  | _, _, _, _, .call relation found inside =>
    .call relation found inside.path
  | _, _, _, _, .times index => .times index

/-- The variables that a derivation introduces are those that its path
counts. -/
theorem counter_path (derivation : Derivation program goal scope s s') :
    s'.counter = s.counter + derivation.path.count := by
  induction derivation with
  | succeed => rfl
  | always unfolded onUnfolded => exact onUnfolded
  | eq unified => rfl
  | disjLeft onLeft inside => exact inside
  | disjRight onRight inside => exact inside
  | conj onFirst onSecond first second =>
      rw [second, first, path, Path.count, Nat.add_assoc]
  | fresh x introduced inside onInside =>
      obtain ⟨_, rfl⟩ := State.fresh?_eq_some_iff.1 introduced
      rw [onInside, path, Path.count, Nat.add_assoc, Nat.add_comm 1]
  | suspend inside onInside => exact onInside
  | call relation found inside onInside => exact onInside
  | times index => rfl

theorem supplies_path (derivation : Derivation program goal scope s s') :
    s.Supplies derivation.path.count := by
  induction derivation with
  | succeed => exact Or.inl rfl
  | always unfolded onUnfolded => exact onUnfolded
  | eq unified => exact Or.inl rfl
  | disjLeft onLeft inside => exact inside
  | disjRight onRight inside => exact inside
  | conj onFirst onSecond first second =>
      exact (State.supplies_add_iff onFirst.counter_path).2 ⟨first, second⟩
  | fresh x introduced inside onInside =>
      exact (State.supplies_succ_iff introduced).2 onInside
  | suspend inside onInside => exact onInside
  | call relation found inside onInside => exact onInside
  | times index => exact Or.inl rfl

/-- A derivation solves the equations of its path. -/
theorem unifyAll_path (derivation : Derivation program goal scope s s') :
    s.substitution.unifyAll
        (derivation.path.equations scope (Var.upcoming s.counter)) =
      .ok s'.substitution := by
  induction derivation with
  | succeed => rfl
  | always unfolded onUnfolded => exact onUnfolded
  | eq unified =>
      rw [path, Path.equations, Substitution.unifyAll_singleton]
      exact unified
  | disjLeft onLeft inside => exact inside
  | disjRight onRight inside => exact inside
  | conj onFirst onSecond first second =>
      rw [path, Path.equations, Var.upcoming_add, ← onFirst.counter_path]
      exact Substitution.unifyAll_append_eq_ok_iff.2 ⟨_, first, second⟩
  | fresh x introduced inside onInside =>
      obtain ⟨sameId, rfl⟩ := State.fresh?_eq_some_iff.1 introduced
      rw [path, Path.equations, Var.upcoming_succ, Var.upcoming_eq sameId]
      exact onInside
  | suspend inside onInside => exact onInside
  | call relation found inside onInside => exact onInside
  | times index => rfl

/-- Derivations from one state with the same choices are the same. -/
theorem path_injective (derivation : Derivation program goal scope s s')
    {t' : State} (other : Derivation program goal scope s t')
    (same : derivation.path = other.path) :
    (⟨s', derivation⟩ : Σ s', Derivation program goal scope s s') =
      ⟨t', other⟩ := by
  induction derivation generalizing t' with
  | succeed =>
      cases other
      rfl
  | always unfolded onUnfolded =>
      cases other with
      | always unfolded' =>
          cases onUnfolded unfolded' (Path.always.inj same)
          rfl
  | eq unified =>
      cases other with
      | eq unified' =>
          obtain rfl := Except.ok.inj (unified.symm.trans unified')
          rfl
  | disjLeft onLeft inside =>
      cases other with
      | disjLeft onLeft' =>
          cases inside onLeft' (Path.disjLeft.inj same)
          rfl
      | disjRight onRight' => cases same
  | disjRight onRight inside =>
      cases other with
      | disjLeft onLeft' => cases same
      | disjRight onRight' =>
          cases inside onRight' (Path.disjRight.inj same)
          rfl
  | conj onFirst onSecond first second =>
      cases other with
      | conj onFirst' onSecond' =>
          obtain ⟨sameFirst, sameSecond⟩ := Path.conj.inj same
          cases first onFirst' sameFirst
          cases second onSecond' sameSecond
          rfl
  | fresh x introduced inside onInside =>
      cases other with
      | fresh x' introduced' inside' =>
          obtain ⟨rfl, rfl⟩ : x = x' ∧ _ = _ := by
            simpa using introduced.symm.trans introduced'
          cases onInside inside' (Path.fresh.inj same)
          rfl
  | suspend inside onInside =>
      cases other with
      | suspend inside' =>
          cases onInside inside' (Path.suspend.inj same)
          rfl
  | call relation found inside onInside =>
      cases other with
      | call relation' found' inside' =>
          obtain rfl := Option.some.inj (found.symm.trans found')
          cases onInside inside' (eq_of_heq (Path.call.inj same).2)
          rfl
  | times index =>
      cases other with
      | times index' =>
          obtain rfl := Path.times.inj same
          rfl

end Goal.Derivation

namespace Goal.Path

variable {program : Program} {goal : Goal}

/-- Where the equations of a path can be solved and there are the variables for
it, there is a derivation along the path. -/
theorem exists_derivation (path : Path program goal) {scope : Scope}
    {s : State} {substitution : Substitution}
    (unified : s.substitution.unifyAll
      (path.equations scope (Var.upcoming s.counter)) = .ok substitution)
    (supplied : s.Supplies path.count) :
    ∃ derivation : Derivation program goal scope s
        ⟨substitution, s.counter + path.count⟩,
      derivation.path = path := by
  induction path generalizing scope s substitution with
  | succeed =>
      obtain rfl := Except.ok.inj unified
      exact ⟨.succeed, rfl⟩
  | always unfolded onUnfolded =>
      obtain ⟨derivation, same⟩ := onUnfolded unified supplied
      exact ⟨.always derivation, congrArg Path.always same⟩
  | eq =>
      rw [equations, Substitution.unifyAll_singleton] at unified
      exact ⟨.eq unified, rfl⟩
  | disjLeft onLeft inside =>
      obtain ⟨derivation, same⟩ := inside unified supplied
      exact ⟨.disjLeft derivation, congrArg Path.disjLeft same⟩
  | disjRight onRight inside =>
      obtain ⟨derivation, same⟩ := inside unified supplied
      exact ⟨.disjRight derivation, congrArg Path.disjRight same⟩
  | conj onFirst onSecond first second =>
      rw [equations, Var.upcoming_add] at unified
      obtain ⟨between, unified, unified'⟩ :=
        Substitution.unifyAll_append_eq_ok_iff.1 unified
      have advanced : (State.mk between (s.counter + onFirst.count)).counter =
        s.counter + onFirst.count := rfl
      obtain ⟨forFirst, forSecond⟩ :=
        (State.supplies_add_iff advanced).1 supplied
      obtain ⟨derivation, same⟩ := first unified forFirst
      obtain ⟨derivation', same'⟩ := second
        (s := ⟨between, s.counter + onFirst.count⟩) unified' forSecond
      rw [count, ← Nat.add_assoc]
      exact ⟨.conj derivation derivation', congrArg₂ Path.conj same same'⟩
  | fresh inside onInside =>
      obtain ⟨x, started, introduced⟩ := supplied.exists_fresh
      have forBody := (State.supplies_succ_iff introduced).1 supplied
      obtain ⟨sameId, rfl⟩ := State.fresh?_eq_some_iff.1 introduced
      rw [equations, Var.upcoming_succ, Var.upcoming_eq sameId] at unified
      obtain ⟨derivation, same⟩ := onInside
        (s := ⟨s.substitution, s.counter + 1⟩) unified forBody
      rw [count, Nat.add_comm inside.count, ← Nat.add_assoc]
      exact ⟨.fresh x introduced derivation, congrArg Path.fresh same⟩
  | suspend inside onInside =>
      obtain ⟨derivation, same⟩ := onInside unified supplied
      exact ⟨.suspend derivation, congrArg Path.suspend same⟩
  | call relation found inside onInside =>
      obtain ⟨derivation, same⟩ := onInside unified supplied
      exact ⟨.call relation found derivation,
        congrArg (Path.call relation found) same⟩
  | times index =>
      obtain rfl := Except.ok.inj unified
      exact ⟨.times index, rfl⟩

end Goal.Path

/-! ### Renaming the variables of a path -/

/-- The variables below the bound stay as they are. -/
def Var.FixesBelow (bound : Nat) (ρ : Var → Var) : Prop :=
  ∀ x : Var, x.id < bound → ρ x = x

theorem Term.rename_of_isBelow {bound : Nat} {ρ : Var → Var}
    (fixes : Var.FixesBelow bound ρ) {term : Term}
    (below : term.isBelow bound = true) : term.rename ρ = term :=
  rename_eq_self fun x member => fixes x (isBelow_iff.1 below x member)

/-- The terms of a scope with every variable replaced by another one. -/
def Scope.rename (ρ : Var → Var) (scope : Scope) : Scope :=
  scope.image fun x => .var (ρ x)

theorem Scope.rename_of_isBelow {bound : Nat} {ρ : Var → Var}
    (fixes : Var.FixesBelow bound ρ) {scope : Scope}
    (below : scope.isBelow bound = true) : scope.rename ρ = scope := by
  have unchanged : ∀ entry ∈ scope, (entry.1, entry.2.rename ρ) = entry := by
    intro entry member
    rw [Term.rename_of_isBelow fixes (List.all_eq_true.1 below entry member)]
  exact (List.map_congr_left unchanged).trans (List.map_id' scope)

/-- Building an expression in a renamed scope renames the term. -/
theorem Expr.rename_build {bound : Nat} {ρ : Var → Var}
    (fixes : Var.FixesBelow bound ρ) {expr : Expr}
    (below : expr.isBelow bound = true) (scope : Scope) (place : Place) :
    (expr.build scope place).rename ρ = expr.build (scope.rename ρ) place := by
  induction expr generalizing place with
  | value v => rfl
  | var x =>
      have less : x.id < bound := by simpa [isBelow] using below
      rw [build, build, Term.rename_var, fixes x less]
  | name n => exact (Scope.find_image _ scope n).symm
  | pair first second onFirst onSecond =>
      simp only [isBelow, Bool.and_eq_true] at below
      rw [build, build, Term.rename_pair, onFirst below.1, onSecond below.2]
  | term t => exact Term.rename_of_isBelow fixes below
  | copies count item onItem =>
      rw [build, build, Term.rename, subst_tabulate, ← onItem below]
      rfl
  | nested depth item onItem =>
      rw [build, build, Term.rename, subst_wrap, ← onItem below]
      rfl

theorem Goal.rename_buildArguments {bound : Nat} {ρ : Var → Var}
    (fixes : Var.FixesBelow bound ρ) {arguments : List Expr}
    (below : arguments.all (Expr.isBelow bound) = true) (scope : Scope)
    (place : Place) :
    (buildArguments scope place arguments).map (Term.rename ρ) =
      buildArguments (scope.rename ρ) place arguments := by
  apply List.ext_getElem
  · simp [buildArguments]
  · intro index within within'
    simp only [buildArguments, List.getElem_map, List.getElem_mapIdx]
    exact Expr.rename_build fixes
      (List.all_eq_true.1 below _ (List.getElem_mem _)) scope _

namespace Goal.Path

variable {program : Program} {goal : Goal}

/-- The equations of a path depend on the variables that it counts only. -/
theorem equations_congr (path : Path program goal) (scope : Scope)
    {supply supply' : Nat → Var}
    (agree : ∀ index < path.count, supply index = supply' index) :
    path.equations scope supply = path.equations scope supply' := by
  induction path generalizing scope supply supply' with
  | succeed => rfl
  | always unfolded onUnfolded => exact onUnfolded [] agree
  | eq => rfl
  | disjLeft onLeft inside => exact inside scope agree
  | disjRight onRight inside => exact inside scope agree
  | conj onFirst onSecond first second =>
      rw [count] at agree
      rw [equations, equations,
        first scope fun index within => agree index (by omega),
        second scope fun index within => agree _ (by omega)]
  | fresh inside onInside =>
      rw [count] at agree
      rw [equations, equations, agree 0 (Nat.succ_pos _),
        onInside _ fun index within => agree _ (by omega)]
  | suspend inside onInside => exact onInside scope agree
  | call relation found inside onInside => exact onInside _ agree
  | times index => rfl

/-- The path of a goal meets the same equations with other variables. -/
theorem equations_rename {bound : Nat} {ρ : Var → Var}
    (fixes : Var.FixesBelow bound ρ)
    (programBelow : program.isBelow bound = true) (path : Path program goal)
    (below : goal.isBelow bound = true) (scope : Scope) (supply : Nat → Var) :
    (path.equations scope supply).map (Prod.map (.rename ρ) (.rename ρ)) =
      path.equations (scope.rename ρ) (ρ ∘ supply) := by
  induction path generalizing scope supply with
  | succeed => rfl
  | always unfolded onUnfolded => exact onUnfolded rfl [] supply
  | eq =>
      simp only [isBelow, every, Bool.and_eq_true] at below
      simp only [equations, List.map_cons, List.map_nil, Prod.map_apply,
        Expr.rename_build fixes below.1, Expr.rename_build fixes below.2]
  | disjLeft onLeft inside =>
      simp only [isBelow, every, Bool.and_eq_true] at below
      exact inside below.1 scope supply
  | disjRight onRight inside =>
      simp only [isBelow, every, Bool.and_eq_true] at below
      exact inside below.2 scope supply
  | conj onFirst onSecond first second =>
      simp only [isBelow, every, Bool.and_eq_true] at below
      rw [equations, equations, List.map_append, first below.1, second below.2]
      rfl
  | fresh inside onInside => exact onInside below _ _
  | suspend inside onInside => exact onInside below scope supply
  | call relation found inside onInside =>
      rw [equations, equations,
        onInside (Program.every_body programBelow found), Scope.rename,
        Relation.scope_image]
      exact congrArg (fun terms => inside.equations (relation.scope terms) _)
        (rename_buildArguments fixes below scope _)
  | times index => rfl

end Goal.Path

end Relational
