/-
Module: Relational.Proofs.Derivation
Purpose: Derivations of goals, and the position at which a search shows the
  branch that a derivation leads to.
Main exports: Goal.every, Goal.isPlain, Goal.Derivation, Goal.searchAt,
  Goal.Derivation.landing, Goal.Derivation.sight_landing,
  Goal.Derivation.landing_injective
-/
import Relational.Proofs.Similarity
import Relational.Proofs.Supply

namespace Relational

/-!
A derivation records how a goal holds: which side of a disjunction was taken,
in which state the first part of a conjunction ended, and so on.  Derivations
know nothing of streams, of the places where terms are built, or of the calls
that are suspended because they are nested too deep.

The fair merge sends every step of its operands to a place that can be
computed, so the position of a derivation's branch in the search of its goal
can be computed along the derivation.  The branch shown there is in a state
equal to the derived one, and different derivations have different positions.
-/

/-- All expressions of the goal meet the test. -/
def Goal.every (test : Expr → Bool) : Goal → Bool
  | .succeed => true
  | .fail => true
  | .never => true
  | .always => true
  | .eq left right => test left && test right
  | .disj left right => left.every test && right.every test
  | .conj first second => first.every test && second.every test
  | .fresh _ body => body.every test
  | .suspend body => body.every test
  | .call _ arguments => arguments.all test
  | .times _ => true

theorem Goal.every_conjAll (test : Expr → Bool) (goals : List Goal) :
    (conjAll goals).every test = goals.all (Goal.every test) := by
  have joined : (conjAll goals).every test =
      joinAll true and (goals.map (Goal.every test)) :=
    apply_joinAll (Goal.every test) rfl (fun _ _ => rfl) goals
  rw [joined, joinAll_and, List.all_map]
  rfl

theorem Goal.every_disjAll (test : Expr → Bool) (goals : List Goal) :
    (disjAll goals).every test = goals.all (Goal.every test) := by
  have joined : (disjAll goals).every test =
      joinAll true and (goals.map (Goal.every test)) :=
    apply_joinAll (Goal.every test) rfl (fun _ _ => rfl) goals
  rw [joined, joinAll_and, List.all_map]
  rfl

/-- All expressions of the relations meet the test. -/
def Program.every (test : Expr → Bool) (program : Program) : Bool :=
  program.all fun entry => entry.2.body.every test

theorem Program.every_body {program : Program} {test : Expr → Bool}
    (met : program.every test = true) {name : String} {relation : Relation}
    (found : program.find? name = some relation) :
    relation.body.every test = true := by
  induction program with
  | nil => simp [find?] at found
  | cons entry older onOlder =>
      rcases entry with ⟨key, first⟩
      simp only [every, List.all_cons, Bool.and_eq_true] at met
      by_cases same : name = key
      · subst same
        obtain rfl : first = relation := by simpa [find?] using found
        exact met.1
      · have different : (name == key) = false := by simpa using same
        simp only [find?, List.lookup_cons, different] at found
        exact onOlder met.2 found

/-- No value written in the goal differs from itself. -/
def Goal.isPlain (goal : Goal) : Bool := goal.every Expr.isPlain

/-- No value written in the relations differs from itself. -/
def Program.isPlain (program : Program) : Bool := program.every Expr.isPlain

/-- The scope of a relation's body for the given terms. -/
def Relation.scope (relation : Relation) (arguments : List Term) : Scope :=
  (relation.parameters.zip arguments).reverse

/-- The ways in which a goal leads from one state to another. -/
inductive Goal.Derivation (program : Program) :
    Goal → Scope → State → State → Type where
  | succeed {scope : Scope} {s : State} :
      Derivation program .succeed scope s s
  /-- The endless goal is a suspension that holds it again. -/
  | always {scope : Scope} {s s' : State}
      (unfolded : Derivation program
        (.suspend (.disj .succeed .always)) [] s s') :
      Derivation program .always scope s s'
  /-- Where the two terms are built makes no difference to the result. -/
  | eq {left right : Expr} {scope : Scope} {s : State}
      {substitution : Substitution}
      (unified : s.substitution.unify (left.build scope (.root 0))
        (right.build scope (.root 1)) = .ok substitution) :
      Derivation program (.eq left right) scope s
        (s.withSubstitution substitution)
  | disjLeft {left right : Goal} {scope : Scope} {s s' : State}
      (onLeft : Derivation program left scope s s') :
      Derivation program (.disj left right) scope s s'
  | disjRight {left right : Goal} {scope : Scope} {s s' : State}
      (onRight : Derivation program right scope s s') :
      Derivation program (.disj left right) scope s s'
  | conj {first second : Goal} {scope : Scope} {s between s' : State}
      (onFirst : Derivation program first scope s between)
      (onSecond : Derivation program second scope between s') :
      Derivation program (.conj first second) scope s s'
  | fresh {name : String} {body : Goal} {scope : Scope}
      {s started s' : State} (x : Var)
      (introduced : s.fresh? = some (x, started))
      (inside : Derivation program body ((name, .var x) :: scope) started s') :
      Derivation program (.fresh name body) scope s s'
  | suspend {body : Goal} {scope : Scope} {s s' : State}
      (inside : Derivation program body scope s s') :
      Derivation program (.suspend body) scope s s'
  | call {name : String} {arguments : List Expr} {scope : Scope}
      {s s' : State} (relation : Relation)
      (found : program.find? name = some relation)
      (inside : Derivation program relation.body
        (relation.scope (buildArguments scope (.root 0) arguments)) s s') :
      Derivation program (.call name arguments) scope s s'
  | times {count : Nat} {scope : Scope} {s : State} (index : Fin count) :
      Derivation program (.times count) scope s s

/-! ### The search of a goal

One equation for every kind of goal says what is seen of its search. -/

namespace Goal

/-- The search that a goal describes from a branch. -/
def searchAt (program : Program) (goal : Goal) (allowance : Nat)
    (scope : Scope) (place : Place) (b : Branch) : Search :=
  ((goal.buildWithin program allowance scope place).search program b).value

variable (program : Program) (allowance : Nat) (scope : Scope) (place : Place)
  (b : Branch)

theorem searchAt_succeed :
    Goal.succeed.searchAt program allowance scope place b =
      .singleton b := by
  rw [searchAt, buildWithin_succeed, Plan.search_succeed, Traced.value_pure]

theorem searchAt_fail :
    Goal.fail.searchAt program allowance scope place b = .nil := by
  rw [searchAt, buildWithin_fail, Plan.search_fail, Traced.value_pure]

theorem searchAt_never :
    Goal.never.searchAt program allowance scope place b =
      (Goal.suspend .never).searchAt program allowance [] place b := by
  rw [searchAt, searchAt, buildWithin_never, buildWithin_suspend]

theorem searchAt_always :
    Goal.always.searchAt program allowance scope place b =
      (Goal.suspend (.disj .succeed .always)).searchAt program allowance []
        place b := by
  rw [searchAt, searchAt, buildWithin_always, buildWithin_suspend]

theorem searchAt_eq (left right : Expr) :
    (Goal.eq left right).searchAt program allowance scope place b =
      (b.equate (left.build scope (.part 0 place))
        (right.build scope (.part 1 place))).value := by
  rw [searchAt, buildWithin_eq, Plan.search_eq]

theorem searchAt_disj (left right : Goal) :
    (Goal.disj left right).searchAt program allowance scope place b =
      (left.searchAt program allowance scope (.part 0 place)
        (b.choose 0)).merge
        (right.searchAt program allowance scope (.part 1 place)
          (b.choose 1)) := by
  rw [searchAt, buildWithin_disj, Plan.search_disj]
  rfl

theorem searchAt_conj (first second : Goal) :
    (Goal.conj first second).searchAt program allowance scope place b =
      ((first.searchAt program allowance scope (.part 0 place) b).bind
        program.described
        (second.buildWithin program allowance scope (.part 1 place))).value := by
  rw [searchAt, buildWithin_conj, Plan.search_conj]
  rfl

variable {b} in
theorem searchAt_fresh {x : Var} {s : State} (name : String) (body : Goal)
    (introduced : b.state.fresh? = some (x, s)) :
    (Goal.fresh name body).searchAt program allowance scope place b =
      body.searchAt program program.allowance ((name, .var x) :: scope)
        (.visit place b.choices) (b.withState s) := by
  rw [searchAt, buildWithin_fresh, Plan.search_fresh program b name _ introduced]
  rfl

variable {b} in
theorem searchAt_fresh_of_none (name : String) (body : Goal)
    (used : b.state.fresh? = none) :
    (Goal.fresh name body).searchAt program allowance scope place b = .nil := by
  rw [searchAt, buildWithin_fresh,
    Plan.search_fresh_of_none program b name _ used]
  rfl

theorem next_searchAt_suspend (body : Goal) :
    ((Goal.suspend body).searchAt program allowance scope place b).next
        program.described =
      some (.tick, body.searchAt program program.allowance scope
        (.visit place b.choices) b) := by
  rw [searchAt, buildWithin_suspend, Plan.search_suspend, Traced.value_pure,
    Stream.next, Suspension.force_task]
  rfl

variable {program} in
theorem searchAt_call {relation : Relation} {name : String}
    (arguments : List Expr) (found : program.find? name = some relation) :
    (Goal.call name arguments).searchAt program (allowance + 1) scope place b =
      relation.body.searchAt program allowance
        (relation.scope (buildArguments scope (.part 0 place) arguments))
        (.part 1 place) b := by
  rw [searchAt, buildWithin_call program allowance scope place _ found]
  rfl

variable {program} in
theorem next_searchAt_call_zero {relation : Relation} {name : String}
    (arguments : List Expr) (found : program.find? name = some relation) :
    ((Goal.call name arguments).searchAt program 0 scope place b).next
        program.described =
      some (.tick, relation.body.searchAt program program.allowance
        (relation.scope (buildArguments scope (.part 0 place) arguments))
        (.visit (.part 1 place) b.choices) b) := by
  rw [searchAt, buildWithin_call_zero program scope place _ found,
    Plan.search_suspend, Traced.value_pure, Stream.next, Suspension.force_task]
  rfl

variable {program} in
theorem searchAt_call_of_none {name : String} (arguments : List Expr)
    (missing : program.find? name = none) :
    (Goal.call name arguments).searchAt program allowance scope place b =
      .nil := by
  rw [searchAt, buildWithin_call_of_none program allowance scope place _ missing,
    Plan.search_fail, Traced.value_pure]

theorem searchAt_times (count : Nat) :
    (Goal.times count).searchAt program allowance scope place b =
      .ofList ((List.range count).map b.choose) := by
  rw [searchAt, buildWithin_times, Plan.search_times, Traced.value_pure]

end Goal

/-! ### Where a derivation leads -/

/-- The branch after an equation, if it holds. -/
def Branch.equated (left right : Term) (b : Branch) : Branch :=
  match b.state.substitution.unify left right with
  | .ok substitution => b.withState (b.state.withSubstitution substitution)
  | .error _ => b

/-- The branch after a variable has been handed out. -/
def Branch.advanced (b : Branch) : Branch :=
  b.withState ⟨b.state.substitution, b.state.counter + 1⟩

namespace Goal.Derivation

variable {program : Program}

/-- The position in the search of the goal, built with the given allowance in
the given scope and place, at which the derivation's branch is shown, together
with that branch. -/
def landing : {goal : Goal} → {scope : Scope} → {s s' : State} →
    Derivation program goal scope s s' →
      Nat → Scope → Place → Branch → Nat × Branch
  | _, _, _, _, .succeed, _, _, _, b => (0, b)
  | _, _, _, _, .always unfolded, allowance, _, place, b =>
    unfolded.landing allowance [] place b
  | .eq left right, _, _, _, .eq _, _, scope, place, b =>
    (0, b.equated (left.build scope (.part 0 place))
      (right.build scope (.part 1 place)))
  | .disj left right, _, _, _, .disjLeft onLeft, allowance, scope, place, b =>
    let inside := onLeft.landing allowance scope (.part 0 place) (b.choose 0)
    ((left.searchAt program allowance scope (.part 0 place)
        (b.choose 0)).leftPlace program.described
      (right.searchAt program allowance scope (.part 1 place) (b.choose 1))
      inside.1, inside.2)
  | .disj left right, _, _, _, .disjRight onRight, allowance, scope, place, b =>
    let inside := onRight.landing allowance scope (.part 1 place) (b.choose 1)
    ((left.searchAt program allowance scope (.part 0 place)
        (b.choose 0)).rightPlace program.described
      (right.searchAt program allowance scope (.part 1 place) (b.choose 1))
      inside.1, inside.2)
  | .conj first second, _, _, _, .conj onFirst onSecond, allowance, scope,
      place, b =>
    let between := onFirst.landing allowance scope (.part 0 place) b
    let inside := onSecond.landing allowance scope (.part 1 place) between.2
    ((first.searchAt program allowance scope (.part 0 place) b).bindPlace
      program.described
      (second.buildWithin program allowance scope (.part 1 place)) between.1
      inside.1, inside.2)
  | .fresh name _, _, _, _, .fresh x _ inside, _, scope, place, b =>
    inside.landing program.allowance ((name, .var x) :: scope)
      (.visit place b.choices) b.advanced
  | _, _, _, _, .suspend inside, _, scope, place, b =>
    let later := inside.landing program.allowance scope
      (.visit place b.choices) b
    (later.1 + 1, later.2)
  | .call _ arguments, _, _, _, .call relation _ inside, 0,
      scope, place, b =>
    let later := inside.landing program.allowance
      (relation.scope (buildArguments scope (.part 0 place) arguments))
      (.visit (.part 1 place) b.choices) b
    (later.1 + 1, later.2)
  | .call _ arguments, _, _, _, .call relation _ inside,
      allowance + 1, scope, place, b =>
    inside.landing allowance
      (relation.scope (buildArguments scope (.part 0 place) arguments))
      (.part 1 place) b
  | _, _, _, _, .times index, _, _, _, b => (index, b.choose index)

end Goal.Derivation

/-! ### Places do not matter -/

theorem Goal.buildArguments_related {related : Term → Term → Prop}
    {arguments : List Expr} {scope scope' : Scope}
    (each : ∀ argument ∈ arguments, ∀ place place',
      related (argument.build scope place) (argument.build scope' place'))
    (place place' : Place) :
    List.Forall₂ related (buildArguments scope place arguments)
      (buildArguments scope' place' arguments) := by
  rw [List.forall₂_iff_get]
  constructor
  · simp [buildArguments]
  · intro index within within'
    simp only [buildArguments, List.get_eq_getElem, List.getElem_mapIdx]
    exact each _ (List.getElem_mem _) _ _

/-- Related arguments are related as they are found under the names of the
parameters. -/
theorem Relation.scope_related (relation : Relation)
    {related : Term → Term → Prop} {terms terms' : List Term}
    (arguments : List.Forall₂ related terms terms') :
    List.Forall₂ (fun entry entry' : String × Term => entry.1 = entry'.1 ∧
      related entry.2 entry'.2) (relation.scope terms)
        (relation.scope terms') := by
  rw [scope, scope, List.forall₂_reverse_iff]
  generalize relation.parameters = parameters
  induction arguments generalizing parameters with
  | nil => simp
  | cons pair _ onRest =>
      cases parameters with
      | nil => simp
      | cons parameter rest => exact .cons ⟨rfl, pair⟩ (onRest rest)

theorem Relation.scope_similar (relation : Relation)
    {terms terms' : List Term}
    (equal : List.Forall₂ (fun term term' => term.eqv term' = true) terms
      terms') :
    (relation.scope terms).Similar (relation.scope terms') :=
  relation.scope_related equal

/-- The body of a relation is built in similar scopes wherever its arguments
are built. -/
theorem Relation.scope_build_similar (relation : Relation)
    {arguments : List Expr} (plain : arguments.all Expr.isPlain = true)
    {scope scope' : Scope} (similar : scope.Similar scope')
    (place place' : Place) :
    (relation.scope (Goal.buildArguments scope place arguments)).Similar
      (relation.scope (Goal.buildArguments scope' place' arguments)) :=
  relation.scope_similar (Goal.buildArguments_related
    (fun _ member => Expr.build_similar (List.all_eq_true.1 plain _ member)
      similar) place place')

theorem State.Similar.fresh? {s s' started : State} (similar : s.Similar s')
    {x : Var} (introduced : s.fresh? = some (x, started)) :
    ∃ started', s'.fresh? = some (x, started') ∧
      started' = ⟨s'.substitution, s'.counter + 1⟩ ∧
        started.Similar started' := by
  obtain ⟨sameId, rfl⟩ := State.fresh?_eq_some_iff.1 introduced
  have introduced' : s'.fresh? = some (x, ⟨s'.substitution, s'.counter + 1⟩) := by
    rw [State.fresh?_eq_some_iff]
    exact ⟨sameId.trans similar.counter, rfl⟩
  exact ⟨_, introduced', rfl, similar.substitution,
    congrArg (· + 1) similar.counter⟩

namespace Goal.Derivation

variable {program : Program} {goal : Goal} {scope scope' : Scope}
  {s s' : State} {b : Branch}

/-- Deriving never takes variables back. -/
theorem counter_le (derivation : Derivation program goal scope s s') :
    s.counter ≤ s'.counter := by
  induction derivation with
  | succeed => exact Nat.le_refl _
  | always unfolded onUnfolded => exact onUnfolded
  | eq unified => exact Nat.le_refl _
  | disjLeft onLeft inside => exact inside
  | disjRight onRight inside => exact inside
  | conj onFirst onSecond first second => exact Nat.le_trans first second
  | fresh x introduced inside onInside =>
      obtain ⟨_, rfl⟩ := State.fresh?_eq_some_iff.1 introduced
      exact Nat.le_of_succ_le onInside
  | suspend inside onInside => exact onInside
  | call relation found inside onInside => exact onInside
  | times index => exact Nat.le_refl _

/-- The search shows the branch of a derivation at its position, in a state
equal to the derived one. -/
theorem sight_landing (plainProgram : program.isPlain = true)
    (derivation : Derivation program goal scope s s')
    (plain : goal.isPlain = true) (scopes : scope.Similar scope')
    (states : s.Similar b.state) (allowance : Nat) (place : Place) :
    (goal.searchAt program allowance scope' place b).sight program.described
        (derivation.landing allowance scope' place b).1 =
      some (.yield (derivation.landing allowance scope' place b).2) ∧
    s'.Similar (derivation.landing allowance scope' place b).2.state := by
  induction derivation generalizing scope' b allowance place with
  | succeed =>
      rw [searchAt_succeed]
      exact ⟨rfl, states⟩
  | always unfolded onUnfolded =>
      rw [searchAt_always]
      exact onUnfolded rfl (.refl []) states allowance place
  | @eq left right scope s substitution unified =>
      simp only [isPlain, every, Bool.and_eq_true] at plain
      obtain ⟨substitution', unified', similar⟩ := states.substitution.unify
        (Expr.build_similar plain.1 scopes _ (.part 0 place))
        (Expr.build_similar plain.2 scopes _ (.part 1 place)) unified
      rw [searchAt_eq, landing, Branch.equate, Branch.equated, unified']
      exact ⟨rfl, similar, states.counter⟩
  | disjLeft onLeft inside =>
      simp only [isPlain, every, Bool.and_eq_true] at plain
      obtain ⟨shown, similar⟩ := inside plain.1 scopes (b := b.choose 0) states
        allowance (.part 0 place)
      rw [searchAt_disj]
      exact ⟨Stream.sight_leftPlace _ shown, similar⟩
  | disjRight onRight inside =>
      simp only [isPlain, every, Bool.and_eq_true] at plain
      obtain ⟨shown, similar⟩ := inside plain.2 scopes (b := b.choose 1) states
        allowance (.part 1 place)
      rw [searchAt_disj]
      exact ⟨Stream.sight_rightPlace _ shown, similar⟩
  | conj onFirst onSecond first second =>
      simp only [isPlain, every, Bool.and_eq_true] at plain
      obtain ⟨shown, between⟩ := first plain.1 scopes states allowance
        (.part 0 place)
      obtain ⟨shown', similar⟩ := second plain.2 scopes between allowance
        (.part 1 place)
      rw [searchAt_conj]
      exact ⟨Stream.sight_bindPlace shown shown', similar⟩
  | @fresh name body scope s started s' x introduced inside onInside =>
      obtain ⟨started', introduced', rfl, similar⟩ := states.fresh? introduced
      rw [searchAt_fresh program allowance scope' place name body introduced']
      exact onInside plain (.cons ⟨rfl, Term.eqv_refl _⟩ scopes)
        (b := b.advanced) similar program.allowance _
  | suspend inside onInside =>
      obtain ⟨shown, similar⟩ := onInside plain scopes states program.allowance
        (.visit place b.choices)
      rw [landing, Stream.sight_succ_of_next
        (next_searchAt_suspend program allowance scope' place b _)]
      exact ⟨shown, similar⟩
  | @call name arguments scope s s' relation found inside onInside =>
      have body := Program.every_body plainProgram found
      have inner := relation.scope_build_similar plain scopes (.root 0)
        (.part 0 place)
      cases allowance with
      | zero =>
          obtain ⟨shown, similar⟩ := onInside body inner states
            program.allowance (.visit (.part 1 place) b.choices)
          rw [landing, Stream.sight_succ_of_next
            (next_searchAt_call_zero scope' place b arguments found)]
          exact ⟨shown, similar⟩
      | succ allowance =>
          rw [searchAt_call allowance scope' place b arguments found]
          exact onInside body inner states allowance (.part 1 place)
  | @times count scope s index =>
      rw [searchAt_times, Stream.sight_ofList]
      exact ⟨by simp [landing], states⟩

/-- Different derivations of a goal from one state have different
positions. -/
theorem landing_injective (plainProgram : program.isPlain = true)
    (derivation : Derivation program goal scope s s') {t' : State}
    (other : Derivation program goal scope s t')
    (plain : goal.isPlain = true) (scopes : scope.Similar scope')
    (states : s.Similar b.state) (allowance : Nat) (place : Place)
    (same : (derivation.landing allowance scope' place b).1 =
      (other.landing allowance scope' place b).1) :
    (⟨s', derivation⟩ : Σ s', Derivation program goal scope s s') =
      ⟨t', other⟩ := by
  induction derivation generalizing t' scope' b allowance place with
  | succeed =>
      cases other
      rfl
  | always unfolded onUnfolded =>
      cases other with
      | always unfolded' =>
          cases onUnfolded unfolded' rfl (.refl []) states allowance place same
          rfl
  | eq unified =>
      cases other with
      | eq unified' =>
          obtain rfl := Except.ok.inj (unified.symm.trans unified')
          rfl
  | disjLeft onLeft inside =>
      simp only [isPlain, every, Bool.and_eq_true] at plain
      have shown := (onLeft.sight_landing plainProgram plain.1 scopes
        (b := b.choose 0) states allowance (.part 0 place)).1
      cases other with
      | disjLeft onLeft' =>
          have shown' := (onLeft'.sight_landing plainProgram plain.1 scopes
            (b := b.choose 0) states allowance (.part 0 place)).1
          cases inside onLeft' plain.1 scopes (b := b.choose 0) states
            allowance (.part 0 place) (Stream.leftPlace_inj shown shown' same)
          rfl
      | disjRight onRight' =>
          have shown' := (onRight'.sight_landing plainProgram plain.2 scopes
            (b := b.choose 1) states allowance (.part 1 place)).1
          exact absurd same (Stream.leftPlace_ne_rightPlace shown shown')
  | disjRight onRight inside =>
      simp only [isPlain, every, Bool.and_eq_true] at plain
      have shown := (onRight.sight_landing plainProgram plain.2 scopes
        (b := b.choose 1) states allowance (.part 1 place)).1
      cases other with
      | disjLeft onLeft' =>
          have shown' := (onLeft'.sight_landing plainProgram plain.1 scopes
            (b := b.choose 0) states allowance (.part 0 place)).1
          exact absurd same.symm (Stream.leftPlace_ne_rightPlace shown' shown)
      | disjRight onRight' =>
          have shown' := (onRight'.sight_landing plainProgram plain.2 scopes
            (b := b.choose 1) states allowance (.part 1 place)).1
          cases inside onRight' plain.2 scopes (b := b.choose 1) states
            allowance (.part 1 place) (Stream.rightPlace_inj shown shown' same)
          rfl
  | conj onFirst onSecond first second =>
      simp only [isPlain, every, Bool.and_eq_true] at plain
      cases other with
      | conj onFirst' onSecond' =>
          obtain ⟨shown, between⟩ := onFirst.sight_landing plainProgram plain.1
            scopes states allowance (.part 0 place)
          obtain ⟨shown', between'⟩ := onFirst'.sight_landing plainProgram
            plain.1 scopes states allowance (.part 0 place)
          have found := (onSecond.sight_landing plainProgram plain.2 scopes
            between allowance (.part 1 place)).1
          have found' := (onSecond'.sight_landing plainProgram plain.2 scopes
            between' allowance (.part 1 place)).1
          obtain ⟨sameFirst, sameSecond⟩ :=
            Stream.bindPlace_injective shown shown' found found' same
          cases first onFirst' plain.1 scopes states allowance (.part 0 place)
            sameFirst
          cases second onSecond' plain.2 scopes between allowance
            (.part 1 place) sameSecond
          rfl
  | fresh x introduced inside onInside =>
      obtain ⟨_, introduced', rfl, similar⟩ := states.fresh? introduced
      cases other with
      | fresh x' introducedToo inside' =>
          obtain ⟨rfl, rfl⟩ : x = x' ∧ _ = _ := by
            simpa using introduced.symm.trans introducedToo
          cases onInside inside' plain (.cons ⟨rfl, Term.eqv_refl _⟩ scopes)
            (b := b.advanced) similar program.allowance _ same
          rfl
  | suspend inside onInside =>
      cases other with
      | suspend inside' =>
          cases onInside inside' plain scopes states program.allowance _
            (Nat.succ.inj same)
          rfl
  | call relation found inside onInside =>
      cases other with
      | call relation' found' inside' =>
          obtain rfl := Option.some.inj (found.symm.trans found')
          have body := Program.every_body plainProgram found
          have inner := relation.scope_build_similar plain scopes (.root 0)
            (.part 0 place)
          cases allowance with
          | zero =>
              cases onInside inside' body inner states program.allowance _
                (Nat.succ.inj same)
              rfl
          | succ allowance =>
              cases onInside inside' body inner states allowance _ same
              rfl
  | times index =>
      cases other with
      | times index' =>
          obtain rfl := Fin.ext same
          rfl

end Goal.Derivation

end Relational
