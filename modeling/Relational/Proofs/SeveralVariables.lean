/-
Module: Relational.Proofs.SeveralVariables
Purpose: A query about several variables finds what its goals find, and the
  hidden query variable is not seen.
Main exports: Scope.numbered, Query.asked, Query.RunReturns,
  Query.runReturns_iff, Goal.alike_freshAll, Query.alike_several,
  Query.OrderedAnswers, Query.several_transparent
-/
import Relational.Proofs.HiddenBinding
import Relational.Proofs.LongerRuns
import Relational.Proofs.Units
import Relational.Query

namespace Relational

/-!
To ask for several variables, a query makes a hidden variable equal to the list
of them before it meets its goals.  The hidden variable is the first one, and
the variables asked for are among the next ones, so the equation holds and binds
the hidden variable.  From there on the binding lies behind all others, and the
goals are searched as they are searched on their own.  Only when an answer is
read off is the binding looked at.

The list is written with names.  All of them are bound by the query itself, so
it does not depend on the scope around the query what they stand for, and the
terms around the query cannot get into the list.
-/

/-! ### Names that are bound one after the other -/

namespace Scope

/-- The scope of names that are bound one after the other to the variables from
an identifier on.  The name that is bound last is the innermost one. -/
def numbered : List String → Nat → Scope
  | [], _ => []
  | name :: names, id =>
    numbered names (id + 1) ++ [(name, Expr.varTerm id)]

theorem isSome_lookup_numbered {name : String} {names : List String}
    {id : Nat} : ((numbered names id).lookup name).isSome = true ↔
      name ∈ names := by
  induction names generalizing id with
  | nil => simp [numbered]
  | cons first names onNames =>
      rw [numbered, List.lookup_append, Option.isSome_or, Bool.or_eq_true,
        onNames, List.mem_cons, or_comm]
      simp

/-- A name that is bound stands for the same in every scope around. -/
theorem find_numbered {name : String} {names : List String}
    (bound : name ∈ names) (id : Nat) (outer : Scope) :
    (numbered names id ++ outer).find name = (numbered names id).find name := by
  obtain ⟨term, found⟩ :=
    Option.isSome_iff_exists.1 (isSome_lookup_numbered.2 bound)
  rw [find, find, List.lookup_append, found, Option.or]

/-- A variable in front of all others is not among what the names stand for. -/
theorem numbered_avoids {q : Var} (names : List String) {id : Nat}
    (later : q.id < id) : (numbered names id).avoids q = true := by
  induction names generalizing id with
  | nil => rfl
  | cons name names onNames =>
      rw [numbered, avoids, List.all_append, Bool.and_eq_true]
      refine ⟨onNames (Nat.lt_succ_of_lt later), ?_⟩
      simp only [List.all_cons, List.all_nil, Bool.and_true,
        decide_eq_true_eq]
      rw [Expr.varTerm, Var.ofNat?]
      split
      · rw [Option.elim, Term.vars, List.mem_singleton, Var.ext_iff]
        exact Nat.ne_of_lt later
      · simp [Term.nil, Term.vars]

end Scope

/-- A list of names depends on what the names stand for, and not on where it is
built. -/
theorem Expr.build_nameList {names : List String} {scope scope' : Scope}
    (same : ∀ name ∈ names, scope.find name = scope'.find name)
    (place place' : Place) :
    (nameList names).build scope place =
      (nameList names).build scope' place' := by
  induction names generalizing place place' with
  | nil => rfl
  | cons name names onNames =>
      exact congrArg₂ Term.pair (same name List.mem_cons_self)
        (onNames (fun name later => same name (List.mem_cons_of_mem _ later))
          (.part 1 place) (.part 1 place'))

/-- A list of different names is built to the list of their variables. -/
theorem Expr.build_numbered {names : List String} (distinct : names.Nodup)
    (id : Nat) (place : Place) :
    (nameList names).build (.numbered names id) place =
      (List.range' id names.length).foldr (fun id => .pair (varTerm id))
        .nil := by
  induction names generalizing id place with
  | nil => rfl
  | cons name names onNames =>
      obtain ⟨new, distinct⟩ := List.nodup_cons.1 distinct
      have head : (Scope.numbered (name :: names) id).find name =
          varTerm id := by
        have unbound : (Scope.numbered names (id + 1)).lookup name = none := by
          rw [← Option.not_isSome_iff_eq_none, Scope.isSome_lookup_numbered]
          exact new
        rw [Scope.numbered, Scope.find, List.lookup_append, unbound]
        simp
      have others : ∀ other ∈ names,
          (Scope.numbered (name :: names) id).find other =
            (Scope.numbered names (id + 1)).find other :=
        fun other listed => Scope.find_numbered listed (id + 1) _
      have rest := build_nameList others (.part 1 place) (.part 1 place)
      exact congrArg₂ Term.pair head
        (rest.trans (onNames distinct (id + 1) (.part 1 place)))

/-! ### The hidden equation -/

namespace Query

/-- The variable that a query introduces first. -/
def first : Var := ⟨0, by decide⟩

/-- The scope of the names that are asked for. -/
def askedScope (names : List String) : Scope :=
  .numbered names (first.id + 1)

/-- The list of what the names stand for.  Their variables follow the first
one. -/
def asked (names : List String) : Term :=
  (Expr.nameList names).build (askedScope names) (.root 0)

/-- Names of their own stand for one variable each, in the order in which they
are introduced. -/
theorem asked_of_nodup {names : List String} (distinct : names.Nodup) :
    asked names = (List.range' (first.id + 1) names.length).foldr
      (fun id => .pair (Expr.varTerm id)) .nil :=
  Expr.build_numbered distinct _ _

-- A name that is bound twice stands for the later variable, and the list holds
-- that one twice.
example : asked ["x", "x"] =
    .pair (.var ⟨2, by decide⟩) (.pair (.var ⟨2, by decide⟩) .nil) := rfl

example : (run [] 1 .all [] (.root 0) ⟨.several ["x", "x"],
    [.succeed]⟩).value.items =
      [.pair (.reified 0) (.pair (.reified 0) .nil)] := by
  cbv

/-- The list is built to the same term around all goals. -/
theorem build_asked (names : List String) (outer : Scope) (place : Place) :
    (Expr.nameList names).build (askedScope names ++ outer) place =
      asked names :=
  Expr.build_nameList (fun _ listed => Scope.find_numbered listed _ outer) place
    _

theorem first_not_mem_asked (names : List String) :
    first ∉ (asked names).vars := by
  have avoids : (Expr.nameList names).avoids first = true := by
    induction names with
    | nil => rfl
    | cons name names onNames => exact onNames
  exact Expr.build_avoids avoids
    (Scope.numbered_avoids names (Nat.lt_succ_self _)) _

theorem asked_rigid (names : List String) (x : Var) : asked names ≠ .var x := by
  cases names with
  | nil => exact Term.noConfusion
  | cons name names => exact Term.noConfusion

end Query

/-- An unbound variable is made equal to a term by binding it. -/
theorem Substitution.empty_unify_var {q : Var} {term : Term}
    (rigid : ∀ x, term ≠ .var x) (free : q ∉ term.vars) :
    empty.unify term (.var q) = .ok (empty.behind ⟨q, term⟩) := by
  have apart : empty.occurs q term = false := by
    rw [← Bool.not_eq_true, occurs_iff wellFormed_empty.acyclic]
    rintro ⟨_, y, member, path⟩
    obtain rfl := eq_of_reflTransGen_unbound rfl path
    exact free member
  have step : empty.reduce ⟨term, .var q, Var.capacity⟩ =
      .ok ([], empty.behind ⟨q, term⟩) := by
    rw [reduce_eq_of_reduction (.bindRight (walk_eq_self_of_rigid _ rigid)
      (walk_of_unbound rfl) rigid), (extend_eq_ok_iff _ _ _ _).2 ⟨apart, rfl⟩]
    rfl
  rw [unify, solve_cons, step]
  simp [Except.bind, solve]

/-! ### The search of a query -/

namespace Goal

variable {program : Program} {c : Correspondence}

theorem every_of_both {test test' : Expr → Bool} {goal : Goal}
    (met : goal.every test = true) (met' : goal.every test' = true) :
    goal.every (fun expr => test expr && test' expr) = true := by
  induction goal with
  | eq left right =>
      simp only [every, Bool.and_eq_true] at met met' ⊢
      exact ⟨⟨met.1, met'.1⟩, met.2, met'.2⟩
  | disj left right onLeft onRight =>
      simp only [every, Bool.and_eq_true] at met met' ⊢
      exact ⟨onLeft met.1 met'.1, onRight met.2 met'.2⟩
  | conj first second onFirst onSecond =>
      simp only [every, Bool.and_eq_true] at met met' ⊢
      exact ⟨onFirst met.1 met'.1, onSecond met.2 met'.2⟩
  | fresh name body onBody => exact onBody met met'
  | suspend body onBody => exact onBody met met'
  | call name arguments =>
      simp only [every, List.all_eq_true, Bool.and_eq_true] at met met' ⊢
      exact fun expr member => ⟨met expr member, met' expr member⟩
  | _ => rfl

/-- New variables around two bodies keep alike what is alike once the variables
have been handed out. -/
theorem alike_freshAll {related : Branch → Branch → Prop} {ticks : Nat}
    {body body' : Goal} (names : List String) {scope : Scope}
    (scopes : c.Scopes scope scope) (place place' : Place) {b : Branch}
    (started : c.start ≤ b.state.counter)
    (inner : ∀ inside, inside = .numbered names b.state.counter ++ scope →
      c.Scopes inside inside → ∀ (place place' : Place) (b' : Branch),
      b'.state = ⟨b.state.substitution, b.state.counter + names.length⟩ →
      Traced.Alike program.rules program.rules related ticks
        ((body.build program inside place).search program b')
        ((body'.build program inside place').search program b')) :
    Traced.Alike program.rules program.rules related ticks
      (((freshAll names body).build program scope place).search program b)
      (((freshAll names body').build program scope place').search program
        b) := by
  induction names generalizing scope place place' b with
  | nil => exact inner scope rfl scopes place place' b rfl
  | cons name names onNames =>
      have built : ∀ body place, (freshAll (name :: names) body).build program
          scope place = .fresh name ⟨freshAll names body, scope, place⟩ :=
        fun body place => buildWithin_fresh ..
      rw [built, built]
      cases introduced : b.state.fresh? with
      | none =>
          rw [Plan.search_fresh_of_none _ _ _ _ introduced,
            Plan.search_fresh_of_none _ _ _ _ introduced]
          exact ⟨rfl, .nil⟩
      | some pair =>
          rcases pair with ⟨x, advanced⟩
          rw [Plan.search_fresh _ _ _ _ introduced,
            Plan.search_fresh _ _ _ _ introduced]
          obtain ⟨sameId, rfl⟩ := State.fresh?_eq_some_iff.1 introduced
          have scopes' : c.Scopes ((name, .var x) :: scope)
              ((name, .var x) :: scope) :=
            .cons ⟨rfl, c.terms_var (sameId ▸ started)⟩ scopes
          obtain ⟨fatal, values⟩ := onNames scopes' (.visit place b.choices)
            (.visit place' b.choices) (b := b.advanced)
            (Nat.le_succ_of_le started) (by
              intro inside bound scopes place place' b' sameState
              refine inner inside (bound.trans ?_) scopes place place' b'
                (sameState.trans ?_)
              · have later : b.advanced.state.counter = x.id + 1 :=
                  congrArg (· + 1) sameId.symm
                rw [later, Scope.numbered, List.append_assoc, ← sameId,
                  Expr.varTerm_id]
                rfl
              · simp [Branch.advanced, Nat.add_assoc, Nat.add_comm 1])
          exact ⟨fatal, values⟩

end Goal

namespace Query

variable {program : Program} {names : List String} {goals : List Goal}
  {outer : Scope}

/-- The binding of the hidden variable has no effect. -/
def inert (names : List String) : Correspondence :=
  .hidden first (asked names) (first_not_mem_asked names)

/-- Behind the equation the goals are searched as they are searched on their
own. -/
theorem alike_conjAll
    (admittedProgram : program.every (inert names).admits = true)
    (admitted : (Goal.conjAll goals).every (inert names).admits = true)
    {list : Expr} {scope : Scope} (scopes : (inert names).Scopes scope scope)
    (listed : ∀ place, list.build scope place = asked names)
    (place place' : Place) (ticks : Nat) {b : Branch} {counter : Nat}
    (state : b.state = ⟨.empty, counter⟩)
    (started : (inert names).start ≤ counter) :
    Traced.Alike program.rules program.rules ((inert names).Branches counter)
      ticks
      (((Goal.conjAll (.eq list (.var first) :: goals)).build program scope
        place).search program b)
      (((Goal.conjAll goals).build program scope place').search program
        b) := by
  let bound : Branch :=
    b.withState ⟨Substitution.empty.behind ⟨first, asked names⟩, counter⟩
  have states : (inert names).States bound.state b.state := by
    rw [state]
    exact ⟨⟨.empty, .refl _, Substitution.apart_empty first, rfl⟩, rfl,
      started⟩
  have equated : (Plan.eq (asked names) (.var first)).search program b =
      .pure (.singleton bound) := by
    rw [Plan.search_eq, Branch.equate, state, Substitution.empty_unify_var
      (asked_rigid names) (first_not_mem_asked names)]
    rfl
  have built : ∀ place, (Goal.eq list (.var first)).build program scope place =
      .eq (asked names) (.var first) := by
    intro place
    rw [Goal.build, Goal.buildWithin_eq, listed]
    rfl
  cases goals with
  | nil =>
      have alone : (Goal.conjAll []).build program scope place' = .succeed :=
        Goal.buildWithin_succeed ..
      have whole : (Goal.conjAll [.eq list (.var first)]).build program scope
          place = .eq (asked names) (.var first) := built place
      rw [whole, equated, alone, Plan.search_succeed]
      exact ⟨rfl, .cons ⟨states, Nat.le_refl _⟩ .nil⟩
  | cons goal rest =>
      have whole : (Goal.conjAll (.eq list (.var first) ::
          goal :: rest)).build program scope place =
          .conj (.eq (asked names) (.var first))
            ((Goal.conjAll (goal :: rest)).build program scope
              (.part 1 place)) :=
        (Goal.buildWithin_conj ..).trans
          (congrArg (Plan.conj · _) (built (.part 0 place)))
      rw [whole, Plan.search_conj, equated, Traced.pure_bind]
      let plan := (Goal.conjAll (goal :: rest)).build program scope
        (.part 1 place)
      have bare : ((Stream.singleton bound).bindWith (plan.search program)
          plan).SameUnfolding program.rules (plan.search program bound) :=
        Stream.bindWith_singleton _ _ bound
      have inner := (inert names).search_alike admittedProgram admitted scopes
        (.part 1 place) place' ticks bound b states
      refine ⟨(congrArg (·.any Event.isFatal) bare.events).trans inner.fatal,
        (bare.values.alike ticks).trans inner.values ?_⟩
      intro _ _ _ same branches
      exact same ▸ branches

/-- The search of the query shows the states of the plain search with the hidden
binding behind their own. -/
theorem alike_several
    (admittedProgram : program.every (inert names).admits = true)
    (admitted : (Goal.conjAll goals).every (inert names).admits = true)
    (scopes : (inert names).Scopes outer outer) (place place' : Place)
    (ticks : Nat) :
    Traced.Alike program.rules program.rules
      (fun b b' => (inert names).States b.state b'.state) ticks
      ((goal ⟨.several names, goals⟩ first).applyTo program outer place
        ⟨.empty, 1⟩)
      ((Goal.freshAll names (.conjAll goals)).applyTo program outer place'
        ⟨.empty, 1⟩) := by
  refine Traced.Alike.apply (Goal.alike_freshAll names scopes place place'
    (Nat.le_refl 1) ?_)
  rintro _ rfl scopes place place' b state
  obtain ⟨fatal, values⟩ := alike_conjAll admittedProgram admitted scopes
    (build_asked names outer) place place' ticks state (Nat.le_add_right 1 _)
  exact ⟨fatal, values.mono (fun branches => branches.states) (Nat.le_refl _)⟩

/-- What the hidden variable stands for is what the list stands for without the
hidden binding. -/
theorem reify_of_inert {s s' : State} (states : (inert names).States s s') :
    (s.reify (.var first)).eqv (s'.reify (asked names)) = true := by
  obtain ⟨visible, similar, apart, substitution⟩ := states.substitution
  rw [State.reify, substitution,
    apart.reify_behind (first_not_mem_asked names)]
  exact similar.reify _

/-! ### Answers -/

variable (program outer) in
/-- A run of the query returns, with the given outcome. -/
def RunReturns (place : Place) (query : Query) (demand : Demand)
    (outcome : Traced Event (Harvest Term)) : Prop :=
  outcome.value.ending ≠ .stopped ∧ outcome.value.ending ≠ .unfinished ∧
    ∃ fuel, query.run program fuel demand outer place = outcome

/-- A run of a query returns what the first variable stands for in the states
that a run of its goal returns. -/
theorem runReturns_iff {place : Place} {query : Query} {demand : Demand}
    {outcome : Traced Event (Harvest Term)} :
    query.RunReturns program outer place demand outcome ↔
      ∃ found, (query.goal first).RunReturns program (query.scope outer first)
          place ⟨.empty, 1⟩ demand found ∧
        outcome = (Traced.after (.introduced first) found).map
          (·.map fun s => s.reify (.var first)) := by
  constructor
  · rintro ⟨running, ended, fuel, rfl⟩
    exact ⟨program.run fuel demand ((query.goal first).build program
      (query.scope outer first) place) ⟨.empty, 1⟩,
      ⟨running, ended, fuel, rfl⟩, rfl⟩
  · rintro ⟨_, ⟨running, ended, fuel, rfl⟩, rfl⟩
    exact ⟨running, ended, fuel, rfl⟩

/-- The answers are what the list stands for in the states, in their order, and
as many suspensions were forced for them until both runs ended in one way. -/
structure OrderedAnswers (list : Term) (answers : Harvest Term)
    (found : Harvest State) : Prop where
  items : List.Forall₂ (fun answer s => answer.eqv (s.reify list) = true)
    answers.items found.items
  forced : answers.forced = found.forced
  ending : answers.ending = found.ending

end Query

/-- A run that returns from one of two searches that are alike returns from the
other one. -/
theorem Goal.RunReturns.alike {program : Program} {goal goal' : Goal}
    {scope scope' : Scope} {place place' : Place} {s s' : State}
    {demand : Demand} {found : Traced Event (Harvest State)}
    (related : State → State → Prop)
    (returns : goal.RunReturns program scope place s demand found)
    (alike : ∀ ticks, Traced.Alike program.rules program.rules
      (fun b b' => related b.state b'.state) ticks
      (goal.applyTo program scope place s)
      (goal'.applyTo program scope' place' s')) :
    ∃ found', goal'.RunReturns program scope' place' s' demand found' ∧
      found.value.Related related found'.value := by
  obtain ⟨calm, taken, collected, rfl⟩ := Goal.runReturns_iff.1 returns
  obtain ⟨taken', collected', items, forced, ending⟩ :=
    collected.alike fun ticks => (alike ticks).values
  refine ⟨_, Goal.runReturns_iff.2
    ⟨(alike 0).fatal.symm.trans calm, taken', collected', rfl⟩, ?_, forced,
    ending⟩
  exact List.forall₂_map_left_iff.2 (List.forall₂_map_right_iff.2 items)

namespace Query

/-- To ask for several variables changes nothing but the shape of the answer.
No value of the program and the goals differs from itself, and neither they nor
the terms around them mention the hidden variable.  Then the search of the query
shows at every position what the search for the goals alone shows there, and the
hidden variable stands for what the list of the variables stands for.  A run of
the query returns exactly if a run for the goals alone does, and its answers are
what the list stands for in the states found by that run, in their order. -/
theorem several_transparent (program : Program) (names : List String)
    (goals : List Goal) (outer : Scope) (place place' : Place)
    (plainProgram : program.isPlain = true)
    (programAvoids : program.every (Expr.avoids first) = true)
    (plain : goals.all Goal.isPlain = true)
    (avoids : goals.all (Goal.every (Expr.avoids first)) = true)
    (outerAvoids : outer.avoids first = true) :
    Stream.Agree program.rules program.rules
      (fun b b' => (b.state.reify (.var first)).eqv
        (b'.state.reify (asked names)) = true)
      ((goal ⟨.several names, goals⟩ first).applyTo program outer place
        ⟨.empty, 1⟩).value
      ((Goal.freshAll names (.conjAll goals)).applyTo program outer place'
        ⟨.empty, 1⟩).value ∧
    (∀ demand answers,
      RunReturns program outer place ⟨.several names, goals⟩ demand answers →
      ∃ found, (Goal.freshAll names (.conjAll goals)).RunReturns program outer
          place' ⟨.empty, 1⟩ demand found ∧
        OrderedAnswers (asked names) answers.value found.value) ∧
    ∀ demand found,
      (Goal.freshAll names (.conjAll goals)).RunReturns program outer place'
        ⟨.empty, 1⟩ demand found →
      ∃ answers, RunReturns program outer place ⟨.several names, goals⟩ demand
          answers ∧
        OrderedAnswers (asked names) answers.value found.value := by
  have admittedProgram : program.every (inert names).admits = true := by
    rw [Program.every, List.all_eq_true]
    intro entry member
    exact Goal.every_of_both (List.all_eq_true.1 plainProgram entry member)
      (List.all_eq_true.1 programAvoids entry member)
  have admitted : (Goal.conjAll goals).every (inert names).admits = true := by
    rw [Goal.every_conjAll, List.all_eq_true]
    intro goal member
    exact Goal.every_of_both (List.all_eq_true.1 plain goal member)
      (List.all_eq_true.1 avoids goal member)
  have scopes : (inert names).Scopes outer outer := by
    refine List.forall₂_same.2 fun entry member => ⟨rfl, Term.eqv_refl _, ?_⟩
    exact of_decide_eq_true (List.all_eq_true.1 outerAvoids entry member)
  have alike := alike_several admittedProgram admitted scopes place place'
  refine ⟨Stream.agree_of_alike fun ticks =>
    (alike ticks).values.mono reify_of_inert (Nat.le_refl _), ?_, ?_⟩
  · intro demand answers returns
    obtain ⟨found, returned, rfl⟩ := runReturns_iff.1 returns
    obtain ⟨found', returned', items, forced, ending⟩ := returned.alike _ alike
    exact ⟨found', returned', List.forall₂_map_left_iff.2
      (items.imp fun _ _ => reify_of_inert), forced, ending⟩
  · intro demand found returned
    obtain ⟨found', returned', items, forced, ending⟩ :=
      returned.alike (flip (inert names).States) fun ticks =>
        ⟨(alike ticks).fatal.symm, (alike ticks).values.symm id⟩
    exact ⟨_, runReturns_iff.2 ⟨found', returned', rfl⟩,
      List.forall₂_map_left_iff.2 (items.flip.imp fun _ _ => reify_of_inert),
      forced.symm, ending.symm⟩

/-- Of two variables the first is the empty list, or else, on demand, the second
is a list of the first.  Both answers are found, and the variable that remains
open has its name from the list asked for. -/
theorem several_transparent_pair :
    ∃ (goals : List Goal) (answers : Traced Event (Harvest Term))
        (remaining : Term),
      goals = [.disj (.eq (.name "x") (.term .nil)) (.suspend
        (.eq (.name "y") (.pair (.name "x") (.term .nil))))] ∧
      remaining = .atom ⟨.reified 0, .root 0⟩ ∧
      RunReturns [] [] (.root 0) ⟨.several ["x", "y"], goals⟩ .all answers ∧
      answers.value.items = [.pair .nil (.pair remaining .nil),
        .pair remaining (.pair (.pair remaining .nil) .nil)] ∧
      ∃ found, (Goal.freshAll ["x", "y"] (.conjAll goals)).RunReturns [] []
          (.root 1) ⟨.empty, 1⟩ .all found ∧
        OrderedAnswers (asked ["x", "y"]) answers.value found.value := by
  let goals : List Goal := [.disj (.eq (.name "x") (.term .nil)) (.suspend
    (.eq (.name "y") (.pair (.name "x") (.term .nil))))]
  let remaining : Term := .atom ⟨.reified 0, .root 0⟩
  let answers := run [] 4 .all [] (.root 0) ⟨.several ["x", "y"], goals⟩
  have items : answers.value.items = [.pair .nil (.pair remaining .nil),
      .pair remaining (.pair (.pair remaining .nil) .nil)] := by
    cbv
  have returns : RunReturns [] [] (.root 0) ⟨.several ["x", "y"], goals⟩ .all
      answers := by
    have ending : answers.value.ending = .exhausted := by cbv
    exact ⟨by simp [ending], by simp [ending], 4, rfl⟩
  obtain ⟨_, runs, _⟩ := several_transparent [] ["x", "y"] goals [] (.root 0)
    (.root 1) rfl rfl rfl (by decide) rfl
  exact ⟨goals, answers, remaining, rfl, rfl, returns, items,
    runs .all answers returns⟩

end Query

end Relational
