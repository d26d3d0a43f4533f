/-
Module: Relational.Proofs.Termination
Purpose: Everything that follows bindings ends by itself, without a bound on how
  far it goes.
Main exports: Round, Ends, Substitution.walkRound, Substitution.occursRound,
  Substitution.resolveRound, Substitution.namesRound, Substitution.unifyRound,
  Substitution.loops_end, Substitution.not_resolve_ends_of_cycle
-/
import Relational.Proofs.Growth

namespace Relational

/-!
Walking, the occurs check, resolution and unification are computed under a bound
on the bindings that are crossed.  This module takes the bound away.  Each of
them is a loop whose rounds look at one term: a round crosses one binding, or
takes a pair apart, or deals with a leaf, and nothing counts the rounds.

What a loop keeps need not become smaller, because crossing a binding fetches a
term that may be larger than all that is pending.  The loops end because the
bindings have no cycle, and they end with the values that are computed under the
bound.  So the bound is never felt.
-/

/-- What a round of a loop comes to. -/
inductive Round (σ ρ : Type) where
  /-- The loop goes on from another state. -/
  | next (state : σ)
  /-- The loop ends with a result. -/
  | done (result : ρ)

/-- The loop ends with the result after finitely many rounds. -/
inductive Ends {σ ρ : Type} (round : σ → Round σ ρ) : σ → ρ → Prop where
  | done {state : σ} {result : ρ} (last : round state = .done result) :
      Ends round state result
  | next {state state' : σ} {result : ρ} (first : round state = .next state')
      (rest : Ends round state' result) : Ends round state result

/-- A loop ends with one result at most. -/
theorem Ends.unique {σ ρ : Type} {round : σ → Round σ ρ} {state : σ}
    {result result' : ρ} (ends : Ends round state result)
    (ends' : Ends round state result') : result = result' := by
  induction ends with
  | done last =>
      cases ends' with
      | done last' => exact Round.done.inj (last.symm.trans last')
      | next first _ => cases last.symm.trans first
  | next first _ onRest =>
      cases ends' with
      | done last => cases first.symm.trans last
      | next first' rest =>
          obtain rfl := Round.next.inj (first.symm.trans first')
          exact onRest rest

/-- The two terms that an equation makes equal. -/
def Equation.sides (equation : Equation) : Term × Term :=
  (equation.left, equation.right)

namespace Substitution

open Relation

/-! ### Walking -/

/-- A round of walking leaves a bound variable for the term it is bound to. -/
def walkRound (s : Substitution) : Term → Round Term Term
  | .var x =>
    match s.lookup x with
    | some term => .next term
    | none => .done (.var x)
  | .atom a => .done (.atom a)
  | .pair first second => .done (.pair first second)

theorem walkRound_of_lookup {s : Substitution} {x : Var} {term : Term}
    (bound : s.lookup x = some term) : s.walkRound (.var x) = .next term := by
  simp [walkRound, bound]

theorem walkRound_of_unbound {s : Substitution} {x : Var}
    (unbound : s.lookup x = none) : s.walkRound (.var x) = .done (.var x) := by
  simp [walkRound, unbound]

theorem walk_ends {s : Substitution} (acyclic : s.Acyclic) (term : Term) :
    Ends s.walkRound term (s.walk term) := by
  induction term using acyclic.termInduction with
  | onUnbound x unbound =>
      rw [walk_of_unbound unbound]
      exact .done (walkRound_of_unbound unbound)
  | onBound x next bound onNext =>
      rw [walk_of_lookup acyclic bound]
      exact .next (walkRound_of_lookup bound) onNext
  | onAtom a => exact .done rfl
  | onPair first second _ _ => exact .done rfl

/-- Walking stops where it has walked to. -/
theorem walkRound_walk {s : Substitution} (acyclic : s.Acyclic) (term : Term) :
    s.walkRound (s.walk term) = .done (s.walk term) := by
  cases walked : s.walk term with
  | var x => exact walkRound_of_unbound (unbound_of_walk acyclic walked)
  | atom a => rfl
  | pair first second => rfl

theorem eq_of_walkRound_done {s : Substitution} {term result : Term}
    (last : s.walkRound term = .done result) : result = term := by
  cases term with
  | var x =>
      cases found : s.lookup x with
      | none =>
          rw [walkRound_of_unbound found] at last
          exact (Round.done.inj last).symm
      | some next =>
          rw [walkRound_of_lookup found] at last
          cases last
  | atom a => exact (Round.done.inj last).symm
  | pair first second => exact (Round.done.inj last).symm

/-! ### The occurs check -/

/-- A round of the occurs check walks on from the topmost pending term, or deals
with where walking from it has ended. -/
def occursRound (s : Substitution) (x : Var) :
    List Term → Round (List Term) Bool
  | [] => .done false
  | term :: pending =>
    match s.walkRound term with
    | .next next => .next (next :: pending)
    | .done (.var y) => if y = x then .done true else .next pending
    | .done (.atom _) => .next pending
    | .done (.pair first second) => .next (first :: second :: pending)

/-- A pending term adds what occurs in it to what the terms below it end with. -/
theorem occurs_ends_onto {s : Substitution} (acyclic : s.Acyclic) (x : Var)
    (term : Term) {pending : List Term} {found : Bool}
    (below : Ends (s.occursRound x) pending found) :
    Ends (s.occursRound x) (term :: pending) (s.occurs x term || found) := by
  induction term using acyclic.termInduction generalizing pending found with
  | onUnbound y unbound =>
      rw [occurs_of_unbound unbound]
      by_cases same : y = x
      · simp only [same, decide_true, Bool.true_or]
        exact .done (by
          simp [occursRound, walkRound_of_unbound (same ▸ unbound)])
      · simp only [same, decide_false, Bool.false_or]
        exact .next (by simp [occursRound, walkRound_of_unbound unbound, same])
          below
  | onBound y next bound onNext =>
      rw [occurs_of_lookup acyclic bound]
      exact .next (by simp [occursRound, walkRound_of_lookup bound])
        (onNext below)
  | onAtom a =>
      rw [occurs_atom, Bool.false_or]
      exact .next rfl below
  | onPair first second onFirst onSecond =>
      rw [occurs_pair, Bool.or_assoc]
      exact .next rfl (onFirst (onSecond below))

theorem occurs_ends {s : Substitution} (acyclic : s.Acyclic) (x : Var)
    (term : Term) : Ends (s.occursRound x) [term] (s.occurs x term) := by
  have nothing : Ends (s.occursRound x) [] false := .done rfl
  simpa using occurs_ends_onto acyclic x term nothing

/-! ### Resolution

Resolution runs along second components in a loop and calls itself for first
components.  The calls that wait are kept as a list. -/

/-- A call that waits for one of its first components: those it has finished, the
latest first, and the second component that it goes on with. -/
structure Caller where
  firsts : List Term
  second : Term

/-- Where resolution stands. -/
inductive Resolving where
  /-- At a term that follows the finished first components of a call. -/
  | enter (firsts : List Term) (rest : Term) (callers : List Caller)
  /-- At the end of a call. -/
  | leave (value : Term) (callers : List Caller)

/-- A round of resolution. -/
def resolveRound (s : Substitution) : Resolving → Round Resolving Term
  | .enter firsts rest callers =>
    match s.walkRound rest with
    | .next next => .next (.enter firsts next callers)
    | .done (.pair first second) =>
      .next (.enter [] first (⟨firsts, second⟩ :: callers))
    | .done leaf => .next (.leave (Term.closeOver firsts leaf) callers)
  | .leave value [] => .done value
  | .leave value (caller :: callers) =>
    .next (.enter (value :: caller.firsts) caller.second callers)

/-- A call ends where its value is handed back, whoever waits for it. -/
theorem resolve_ends_onto {s : Substitution} (acyclic : s.Acyclic)
    (term : Term) {firsts : List Term} {callers : List Caller} {result : Term}
    (back : Ends s.resolveRound
      (.leave (Term.closeOver firsts (s.resolve term)) callers) result) :
    Ends s.resolveRound (.enter firsts term callers) result := by
  induction term using acyclic.termInduction generalizing firsts callers with
  | onUnbound x unbound =>
      rw [resolve_of_unbound unbound] at back
      exact .next (by simp [resolveRound, walkRound_of_unbound unbound]) back
  | onBound x next bound onNext =>
      rw [resolve_of_lookup acyclic bound] at back
      exact .next (by simp [resolveRound, walkRound_of_lookup bound])
        (onNext back)
  | onAtom a =>
      rw [resolve_atom] at back
      exact .next rfl back
  | onPair first second onFirst onSecond =>
      rw [resolve_pair] at back
      -- Behind the value of the first component the call goes on in a loop.
      have after : Ends s.resolveRound
          (.enter (s.resolve first :: firsts) second callers) result :=
        onSecond back
      exact .next rfl (onFirst (.next rfl after))

theorem resolve_ends {s : Substitution} (acyclic : s.Acyclic) (term : Term) :
    Ends s.resolveRound (.enter [] term []) (s.resolve term) :=
  resolve_ends_onto acyclic term (.done rfl)

/-! In the other direction, a variable from which resolution ends leads to no
cycle: every binding that can be reached from it is crossed in some round. -/

/-- The variables that resolution has still to look at. -/
def Resolving.vars : Resolving → List Var
  | .enter _ rest callers =>
    rest.vars ++ callers.flatMap fun caller => caller.second.vars
  | .leave _ callers => callers.flatMap fun caller => caller.second.vars

/-- Paths of bindings from the variable have an end. -/
def Grounded (s : Substitution) : Var → Prop :=
  Acc fun y x => s.Refers x y

theorem grounded_of_unbound {s : Substitution} {x : Var}
    (unbound : s.lookup x = none) : s.Grounded x :=
  ⟨x, fun _ refers => absurd refers (not_refers_of_unbound unbound)⟩

theorem grounded_of_lookup {s : Substitution} {x : Var} {term : Term}
    (bound : s.lookup x = some term)
    (inside : ∀ y ∈ term.vars, s.Grounded y) : s.Grounded x := by
  refine ⟨x, ?_⟩
  rintro y ⟨found, bound', member⟩
  rw [bound, Option.some.injEq] at bound'
  exact inside y (bound' ▸ member)

theorem grounded_of_resolve_ends {s : Substitution} {state : Resolving}
    {result : Term} (ends : Ends s.resolveRound state result) :
    ∀ x ∈ state.vars, s.Grounded x := by
  induction ends with
  | @done state result last =>
      cases state with
      | enter firsts rest callers =>
          simp only [resolveRound] at last
          split at last <;> cases last
      | leave value callers =>
          cases callers with
          | nil => simp [Resolving.vars]
          | cons caller callers => cases last
  | @next state state' result first _ onRest =>
      cases state with
      | enter firsts rest callers =>
          cases rest with
          | var x =>
              cases found : s.lookup x with
              | none =>
                  simp only [resolveRound, walkRound_of_unbound found,
                    Round.next.injEq] at first
                  subst first
                  intro y member
                  rcases List.mem_cons.1 member with rfl | member
                  · exact grounded_of_unbound found
                  · exact onRest y member
              | some next =>
                  simp only [resolveRound, walkRound_of_lookup found,
                    Round.next.injEq] at first
                  subst first
                  intro y member
                  rcases List.mem_cons.1 member with rfl | member
                  · exact grounded_of_lookup found fun z inside =>
                      onRest z (List.mem_append_left _ inside)
                  · exact onRest y (List.mem_append_right _ member)
          | atom a =>
              cases first
              exact onRest
          | pair first' second =>
              cases first
              simpa [Resolving.vars, Term.vars] using onRest
      | leave value callers =>
          cases callers with
          | nil => cases first
          | cons caller callers =>
              cases first
              simpa [Resolving.vars] using onRest

theorem Grounded.not_cycle {s : Substitution} {x : Var}
    (grounded : s.Grounded x) : ¬ TransGen s.Refers x x := by
  induction grounded with
  | intro x _ onReferred =>
      intro cycle
      obtain ⟨y, refers, back⟩ := TransGen.head'_iff.1 cycle
      exact onReferred y refers (.tail' back refers)

/-- Resolution of a variable that leads back to itself never ends. -/
theorem not_resolve_ends_of_cycle {s : Substitution} {x : Var}
    (cycle : TransGen s.Refers x x) (result : Term) :
    ¬ Ends s.resolveRound (.enter [] (.var x) []) result := by
  intro ends
  have grounded : s.Grounded x :=
    grounded_of_resolve_ends ends x (by simp [Resolving.vars, Term.vars])
  exact grounded.not_cycle cycle

/-! ### Names

The names of variables form a substitution that grows while it is used.  It binds
variables to atoms, so nothing is ever reached through it. -/

/-- A round of naming: a variable without a name receives the next one. -/
def namesRound : Substitution × List Term →
    Round (Substitution × List Term) Substitution
  | (names, []) => .done names
  | (names, term :: pending) =>
    match names.walkRound term with
    | .next name => .next (names, name :: pending)
    | .done (.var x) =>
      .next (names.prepend ⟨x, .reified names.size⟩, pending)
    | .done (.atom _) => .next (names, pending)
    | .done (.pair first second) => .next (names, first :: second :: pending)

/-- Every variable that is bound is bound to an atom. -/
def BindsAtoms (s : Substitution) : Prop :=
  ∀ x term, s.lookup x = some term → ∃ a, term = .atom a

theorem BindsAtoms.acyclic {s : Substitution} (names : s.BindsAtoms) :
    s.Acyclic := by
  intro x cycle
  obtain ⟨y, ⟨term, bound, member⟩, _⟩ := TransGen.head'_iff.1 cycle
  obtain ⟨a, rfl⟩ := names x term bound
  simp [Term.vars] at member

theorem BindsAtoms.nameNext {names : Substitution} (atoms : names.BindsAtoms)
    (x : Var) : (names.nameNext x).BindsAtoms := by
  cases found : names.lookup x with
  | some _ => rwa [Substitution.nameNext, found]
  | none =>
      intro y term bound
      rw [Substitution.nameNext, found, lookup_prepend] at bound
      split at bound
      · exact ⟨_, (Option.some.inj bound).symm⟩
      · exact atoms y term bound

theorem BindsAtoms.foldVars {names : Substitution} (atoms : names.BindsAtoms)
    (term : Term) : (term.foldVars Substitution.nameNext names).BindsAtoms := by
  induction term generalizing names with
  | var x => exact atoms.nameNext x
  | atom a => exact atoms
  | pair first second onFirst onSecond => exact onSecond (onFirst atoms)

theorem names_ends_onto {names : Substitution} (atoms : names.BindsAtoms)
    (term : Term) {pending : List Term} {result : Substitution}
    (below : Ends namesRound (term.foldVars nameNext names, pending) result) :
    Ends namesRound (names, term :: pending) result := by
  induction term generalizing names pending with
  | var x =>
      rw [Term.foldVars, nameNext] at below
      cases found : names.lookup x with
      | none =>
          rw [found] at below
          exact .next (by simp [namesRound, walkRound_of_unbound found]) below
      | some name =>
          rw [found] at below
          obtain ⟨a, rfl⟩ := atoms x name found
          have skipped : Ends namesRound (names, .atom a :: pending) result :=
            .next rfl below
          exact .next (by simp [namesRound, walkRound_of_lookup found]) skipped
  | atom a => exact .next rfl below
  | pair first second onFirst onSecond =>
      exact .next rfl (onFirst atoms (onSecond (atoms.foldVars first) below))

theorem bindsAtoms_empty : empty.BindsAtoms :=
  fun _ _ bound => nomatch bound

theorem names_ends (term : Term) :
    Ends namesRound (.empty, [term]) term.names :=
  names_ends_onto bindsAtoms_empty term (.done rfl)

/-- Where variables are bound to atoms, resolving is one replacement. -/
theorem BindsAtoms.resolve_eq_subst {s : Substitution} (atoms : s.BindsAtoms)
    (term : Term) :
    s.resolve term = term.subst fun x => (s.lookup x).getD (.var x) := by
  induction term with
  | var x =>
      cases found : s.lookup x with
      | none => simp [resolve_of_unbound found, found]
      | some name =>
          obtain ⟨a, rfl⟩ := atoms x name found
          simp [resolve_of_lookup atoms.acyclic found, found]
  | atom a => exact s.resolve_atom a
  | pair first second onFirst onSecond =>
      rw [resolve_pair, Term.subst_pair, onFirst, onSecond]

/-- The canonical form resolves the resolved term once more, by the names of its
variables. -/
theorem reify_ends (s : Substitution) (term : Term) :
    Ends (s.resolve term).names.resolveRound (.enter [] (s.resolve term) [])
      (s.reify term) := by
  have atoms : (s.resolve term).names.BindsAtoms :=
    bindsAtoms_empty.foldVars (s.resolve term)
  rw [reify, ← atoms.resolve_eq_subst]
  exact resolve_ends atoms.acyclic _

/-! ### Unification -/

/-- Where unification stands. -/
inductive Unifying where
  /-- At the topmost of the pending equations. -/
  | solve (s : Substitution) (pending : List (Term × Term))
  /-- In the occurs check of a binding, with the terms that it has still to look
  at. -/
  | check (s : Substitution) (x : Var) (term : Term) (stack : List Term)
      (pending : List (Term × Term))

/-- A round of unification walks on from a side of the topmost equation, deals
with its walked sides, or is a round of an occurs check. -/
def unifyRound : Unifying → Round Unifying (Except Failure Substitution)
  | .solve s [] => .done (.ok s)
  | .solve s ((left, right) :: pending) =>
    match s.walkRound left, s.walkRound right with
    | .next left', _ => .next (.solve s ((left', right) :: pending))
    | .done _, .next right' => .next (.solve s ((left, right') :: pending))
    | .done (.var x), .done (.var y) =>
      if x = y then .next (.solve s pending)
      else .next (.check s x (.var y) [.var y] pending)
    | .done (.var x), .done term => .next (.check s x term [term] pending)
    | .done term, .done (.var y) => .next (.check s y term [term] pending)
    | .done (.pair first second), .done (.pair first' second') =>
      .next (.solve s ((first, first') :: (second, second') :: pending))
    | .done (.atom a), .done (.atom b) =>
      if a.eqv b then .next (.solve s pending)
      else .done (.error (.mismatch (.atom a) (.atom b)))
    | .done left', .done right' => .done (.error (.mismatch left' right'))
  | .check s x term stack pending =>
    match s.occursRound x stack with
    | .next stack' => .next (.check s x term stack' pending)
    | .done true => .done (.error (.occurs x term))
    | .done false => .next (.solve (s.prepend ⟨x, term⟩) pending)

theorem unify_ends_of_walk_left {s : Substitution} {left left' right : Term}
    (walks : Ends s.walkRound left left') {pending : List (Term × Term)}
    {result : Except Failure Substitution}
    (walked : Ends unifyRound (.solve s ((left', right) :: pending)) result) :
    Ends unifyRound (.solve s ((left, right) :: pending)) result := by
  induction walks with
  | done last =>
      obtain rfl := eq_of_walkRound_done last
      exact walked
  | next first _ onRest =>
      exact .next (by simp [unifyRound, first]) (onRest walked)

theorem unify_ends_of_walk_right {s : Substitution} {left right right' : Term}
    (stopped : s.walkRound left = .done left)
    (walks : Ends s.walkRound right right') {pending : List (Term × Term)}
    {result : Except Failure Substitution}
    (walked : Ends unifyRound (.solve s ((left, right') :: pending)) result) :
    Ends unifyRound (.solve s ((left, right) :: pending)) result := by
  induction walks with
  | done last =>
      obtain rfl := eq_of_walkRound_done last
      exact walked
  | next first _ onRest =>
      exact .next (by simp [unifyRound, stopped, first]) (onRest walked)

/-- The check of a binding ends the loop if it finds the variable, and lets it go
on with the binding if it does not. -/
theorem unify_ends_of_check {s : Substitution} {x : Var} {stack : List Term}
    {found : Bool} (checks : Ends (s.occursRound x) stack found) {term : Term}
    {pending : List (Term × Term)} {result : Except Failure Substitution}
    (caught : found = true → result = .error (.occurs x term))
    (passed : found = false →
      Ends unifyRound (.solve (s.prepend ⟨x, term⟩) pending) result) :
    Ends unifyRound (.check s x term stack pending) result := by
  induction checks with
  | @done stack found last =>
      cases found with
      | true =>
          rw [caught rfl]
          exact .done (by simp [unifyRound, last])
      | false => exact .next (by simp [unifyRound, last]) (passed rfl)
  | next first _ onRest =>
      exact .next (by simp [unifyRound, first]) (onRest caught passed)

/-- How the loop ends after a step on an equation: at once if the step fails, and
otherwise with what the equations that are left end with. -/
def Settles (pending : List (Term × Term))
    (outcome : Except Failure (List Equation × Substitution))
    (result : Except Failure Substitution) : Prop :=
  match outcome with
  | .error failure => result = .error failure
  | .ok (simpler, s) =>
    Ends unifyRound (.solve s (simpler.map Equation.sides ++ pending)) result

theorem unify_ends_of_extend {s : Substitution} (acyclic : s.Acyclic) {x : Var}
    {term : Term} {pending : List (Term × Term)}
    {result : Except Failure Substitution}
    (after : Settles pending ((s.extend x term).map ([], ·)) result) :
    Ends unifyRound (.check s x term [term] pending) result := by
  refine unify_ends_of_check (occurs_ends acyclic x term) ?_ ?_
  · intro caught
    rw [(extend_eq_error_iff _ _ _ _).2 ⟨caught, rfl⟩] at after
    exact after
  · intro passed
    rw [(extend_eq_ok_iff _ _ _ _).2 ⟨passed, rfl⟩] at after
    exact after

/-- A step on a funded equation is made in finitely many rounds. -/
theorem unify_ends_of_reduce {s : Substitution} (acyclic : s.Acyclic)
    {equation : Equation} (funded : equation.Funded s)
    {pending : List (Term × Term)} {result : Except Failure Substitution}
    (after : Settles pending (s.reduce equation) result) :
    Ends unifyRound (.solve s (equation.sides :: pending)) result := by
  have leftStops := walkRound_walk acyclic equation.left
  have rightStops := walkRound_walk acyclic equation.right
  refine unify_ends_of_walk_left (walk_ends acyclic equation.left)
    (unify_ends_of_walk_right leftStops (walk_ends acyclic equation.right) ?_)
  have step := s.reduction_reduce equation
  generalize s.reduce equation = outcome at after step
  cases step with
  | sameVar left right =>
      rw [left] at leftStops ⊢
      rw [right] at rightStops ⊢
      exact .next (by simp [unifyRound, leftStops]) after
  | @bindLeft x term left right different =>
      rw [left] at leftStops ⊢
      rw [right] at rightStops ⊢
      refine .next ?_ (unify_ends_of_extend acyclic after)
      cases term with
      | var y =>
          have apart : x ≠ y := fun same => different (same ▸ rfl)
          simp [unifyRound, leftStops, rightStops, apart]
      | atom b => simp [unifyRound, leftStops, rightStops]
      | pair first' second' => simp [unifyRound, leftStops, rightStops]
  | @bindRight y term left right rigid =>
      rw [left] at leftStops ⊢
      rw [right] at rightStops ⊢
      refine .next ?_ (unify_ends_of_extend acyclic after)
      cases term with
      | var x => exact absurd rfl (rigid x)
      | atom a => simp [unifyRound, leftStops, rightStops]
      | pair first second => simp [unifyRound, leftStops, rightStops]
  | split left right passedOn =>
      rw [left] at leftStops ⊢
      rw [right] at rightStops ⊢
      exact .next (by simp [unifyRound, leftStops, rightStops, Equation.sides])
        after
  | exhausted left right passedOn =>
      -- The one way to fail that the loop does not have.
      obtain ⟨allowance, some, _⟩ := funded.passedOn acyclic left
      simp [passedOn] at some
  | sameAtom left right equal =>
      rw [left] at leftStops ⊢
      rw [right] at rightStops ⊢
      exact .next (by simp [unifyRound, leftStops, rightStops, equal]) after
  | clash apart =>
      rw [after]
      generalize s.walk equation.left = left at apart leftStops
      generalize s.walk equation.right = right at apart rightStops
      refine .done ?_
      cases apart with
      | atoms different => simp [unifyRound, leftStops, rightStops, different]
      | atomPair => simp [unifyRound, leftStops, rightStops]
      | pairAtom => simp [unifyRound, leftStops, rightStops]

theorem solve_ends {s : Substitution} (acyclic : s.Acyclic)
    {stack : List Equation} (funded : ∀ e ∈ stack, e.Funded s) :
    Ends unifyRound (.solve s (stack.map Equation.sides)) (s.solve stack) := by
  fun_induction solve s stack with
  | case1 s => exact .done rfl
  | case2 s equation rest failure reduced =>
      refine unify_ends_of_reduce acyclic (funded equation (by simp)) ?_
      rw [reduced]
      rfl
  | case3 s equation rest simpler grown reduced onSimpler =>
      refine unify_ends_of_reduce acyclic (funded equation (by simp)) ?_
      rw [reduced, Settles, ← List.map_append]
      have grows := grows_of_reduce acyclic reduced
      exact onSimpler (acyclic.of_grows grows)
        (funded_append_of_reduce acyclic funded reduced)

theorem unify_ends {s : Substitution} (acyclic : s.Acyclic)
    (left right : Term) :
    Ends unifyRound (.solve s [(left, right)]) (s.unify left right) :=
  solve_ends acyclic (s.funded_unify left right)

/-! ### All loops -/

/-- Under every substitution that can be built, all loops end: walking from a
term, the occurs check, resolution, naming what is left and replacing it by its
names, and unification, whether it succeeds or fails.  They end with the values
that are computed under a bound. -/
theorem loops_end {s : Substitution} (built : s.Built) :
    (∀ term, Ends s.walkRound term (s.walk term)) ∧
    (∀ x term, Ends (s.occursRound x) [term] (s.occurs x term)) ∧
    (∀ term, Ends s.resolveRound (.enter [] term []) (s.resolve term)) ∧
    (∀ term,
      Ends namesRound (.empty, [s.resolve term]) (s.resolve term).names ∧
      Ends (s.resolve term).names.resolveRound (.enter [] (s.resolve term) [])
        (s.reify term)) ∧
    ∀ left right,
      Ends unifyRound (.solve s [(left, right)]) (s.unify left right) := by
  have acyclic := built.wellFormed.acyclic
  exact ⟨walk_ends acyclic, occurs_ends acyclic, resolve_ends acyclic,
    fun term => ⟨names_ends _, s.reify_ends term⟩, unify_ends acyclic⟩

/-- A variable is bound to a list that holds another one: walking ends at the
list, and unifying the two variables ends with a failed occurs check. -/
theorem loops_end_list :
    ∃ (x y : Var) (s : Substitution), x ≠ y ∧ s.Built ∧
      Ends s.walkRound (.var x) (.pair (.var y) .nil) ∧
      Ends unifyRound (.solve s [(.var y, .var x)])
        (.error (.occurs y (.pair (.var y) .nil))) := by
  let x : Var := ⟨0, by decide⟩
  let y : Var := ⟨1, by decide⟩
  let s : Substitution := empty.prepend ⟨x, .pair (.var y) .nil⟩
  have built : s.Built :=
    .extend .empty rfl ((extend_eq_ok_iff _ _ _ _).2 ⟨by decide, rfl⟩)
  have failed : s.unify (.var y) (.var x) =
      .error (.occurs y (.pair (.var y) .nil)) := by
    cbv
  obtain ⟨walking, _, _, _, unifying⟩ := loops_end built
  exact ⟨x, y, s, by decide, built, walking (.var x),
    failed ▸ unifying (.var y) (.var x)⟩

end Substitution

end Relational
