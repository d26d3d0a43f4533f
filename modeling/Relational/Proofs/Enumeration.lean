/-
Module: Relational.Proofs.Enumeration
Purpose: The search of a goal shows every derivation exactly once.
Main exports: Goal.Explained, Goal.explained, Goal.search_enumerates
-/
import Mathlib.Data.Set.Function
import Relational.Proofs.Derivation

namespace Relational

/-!
Every derivation has a position in the search of its goal.  Conversely every
element of the search comes from a derivation.  An element of a composite
search comes from elements of its parts, but these may stand later there than
it stands in the whole: a conjunction drops the elements of its first part that
its second part has no answer for.  So positions are no measure to go by.

What does not grow from the whole to a part is the number of suspensions that
are forced before the element is shown.  It decreases where a suspension is
entered.  Where a new variable is introduced fewer variables are left, where a
relation is called the allowance decreases, and everywhere else the goal
becomes smaller.
-/

namespace Goal

variable {program : Program}

/-- Every element that the goal shows after so many forced suspensions and
with so many variables left is the landing of a derivation. -/
def Explained (program : Program) (ticks left allowance : Nat)
    (goal : Goal) : Prop :=
  ∀ {scope scope' : Scope} {place : Place} {s : State} {b b' : Branch}
    {n : Nat}, goal.isPlain = true → scope.Similar scope' →
    s.Similar b.state →
    (goal.searchAt program allowance scope' place b).sight program.described
      n = some (.yield b') →
    (goal.searchAt program allowance scope' place b).ticks program.described
      n ≤ ticks →
    Var.capacity - b.state.counter ≤ left →
    ∃ (s' : State) (derivation : Derivation program goal scope s s'),
      derivation.landing allowance scope' place b = (n, b')

variable {ticks left allowance : Nat}

theorem explained_succeed :
    Explained program ticks left allowance .succeed := by
  intro scope scope' place s b b' n _ _ _ shown _ _
  rw [searchAt_succeed, Stream.sight_singleton_iff] at shown
  rcases shown with ⟨rfl, same⟩
  obtain rfl := Sight.yield.inj same
  exact ⟨s, .succeed, rfl⟩

theorem explained_fail : Explained program ticks left allowance .fail := by
  intro scope scope' place s b b' n _ _ _ shown _ _
  rw [searchAt_fail, Stream.sight_of_next_none rfl] at shown
  cases shown

/-- The endless goal without answers shows nothing but suspensions. -/
theorem sight_never (scope : Scope) (place : Place) (b : Branch) (n : Nat) :
    (Goal.never.searchAt program allowance scope place b).sight
      program.described n = some .tick := by
  induction n generalizing allowance scope place with
  | zero =>
      rw [searchAt_never, Stream.sight_zero_of_next
        (next_searchAt_suspend program allowance [] place b .never)]
  | succ n earlier =>
      rw [searchAt_never, Stream.sight_succ_of_next
        (next_searchAt_suspend program allowance [] place b .never)]
      exact earlier _ _

theorem explained_never : Explained program ticks left allowance .never := by
  intro scope scope' place s b b' n _ _ _ shown _ _
  rw [sight_never] at shown
  cases shown

theorem explained_eq (first second : Expr) :
    Explained program ticks left allowance (.eq first second) := by
  intro scope scope' place s b b' n plain scopes states shown _ _
  simp only [isPlain, every, Bool.and_eq_true] at plain
  rw [searchAt_eq, Branch.equate] at shown
  cases unified : b.state.substitution.unify
      (first.build scope' (.part 0 place))
      (second.build scope' (.part 1 place)) with
  | error failure =>
      rw [unified] at shown
      rw [Traced.value_after, Traced.value_pure,
        Stream.sight_of_next_none rfl] at shown
      cases shown
  | ok substitution' =>
      rw [unified, Traced.value_pure, Stream.sight_singleton_iff] at shown
      rcases shown with ⟨rfl, same⟩
      obtain rfl := Sight.yield.inj same
      obtain ⟨substitution, unifiedToo, _⟩ := states.substitution.symm.unify
        (Expr.build_similar plain.1 scopes.symm _ (.root 0))
        (Expr.build_similar plain.2 scopes.symm _ (.root 1)) unified
      refine ⟨_, .eq unifiedToo, ?_⟩
      rw [Derivation.landing, Branch.equated, unified]

theorem explained_times (count : Nat) :
    Explained program ticks left allowance (.times count) := by
  intro scope scope' place s b b' n _ _ _ shown _ _
  rw [searchAt_times, Stream.sight_ofList] at shown
  simp only [List.getElem?_map, Option.map_map, Option.map_eq_some_iff,
    Function.comp, List.getElem?_eq_some_iff, List.length_range,
    List.getElem_range] at shown
  rcases shown with ⟨index, ⟨within, rfl⟩, reached⟩
  obtain rfl : b.choose n = b' := by simpa using reached
  exact ⟨s, .times ⟨n, within⟩, rfl⟩

theorem explained_disj {first second : Goal}
    (onFirst : Explained program ticks left allowance first)
    (onSecond : Explained program ticks left allowance second) :
    Explained program ticks left allowance (.disj first second) := by
  intro scope scope' place s b b' n plain scopes states shown forced supply
  simp only [isPlain, every, Bool.and_eq_true] at plain
  rw [searchAt_disj] at shown forced
  rcases Stream.exists_place_of_sight_merge shown with
    ⟨k, inside, rfl⟩ | ⟨k, inside, rfl⟩
  · have fewer := Nat.le_trans
      ((Stream.ticks_le_place program.described k).1 _ _) forced
    obtain ⟨s', derivation, reached⟩ := onFirst plain.1 scopes
      (b := b.choose 0) states inside fewer supply
    refine ⟨s', .disjLeft derivation, ?_⟩
    rw [Derivation.landing, reached]
  · have fewer := Nat.le_trans
      ((Stream.ticks_le_place program.described k).2 _ _) forced
    obtain ⟨s', derivation, reached⟩ := onSecond plain.2 scopes
      (b := b.choose 1) states inside fewer supply
    refine ⟨s', .disjRight derivation, ?_⟩
    rw [Derivation.landing, reached]

theorem explained_conj (plainProgram : program.isPlain = true)
    {first second : Goal}
    (onFirst : Explained program ticks left allowance first)
    (onSecond : Explained program ticks left allowance second) :
    Explained program ticks left allowance (.conj first second) := by
  intro scope scope' place s b b' n plain scopes states shown forced supply
  simp only [isPlain, every, Bool.and_eq_true] at plain
  rw [searchAt_conj] at shown forced
  obtain ⟨k, reached, j, element, inside, rfl⟩ := Stream.exists_bindPlace shown
  obtain ⟨ofFirst, ofSecond⟩ := Stream.ticks_le_bindPlace (j := j) element
  obtain ⟨between, derivation, landed⟩ := onFirst plain.1 scopes states element
    (Nat.le_trans ofFirst forced) supply
  have similar := (derivation.sight_landing plainProgram plain.1 scopes states
    allowance (.part 0 place)).2
  rw [landed] at similar
  -- The branch in between has at most as many variables left.
  have supply' : Var.capacity - reached.state.counter ≤ left := by
    have advanced := derivation.counter_le
    rw [states.counter, similar.counter] at advanced
    exact Nat.le_trans (Nat.sub_le_sub_left advanced _) supply
  obtain ⟨s', derivation', landed'⟩ := onSecond plain.2 scopes similar inside
    (Nat.le_trans ofSecond forced) supply'
  refine ⟨s', .conj derivation derivation', ?_⟩
  rw [Derivation.landing, landed, landed']

theorem explained_fresh (name : String) {body : Goal}
    (onBody : ∀ fewer < left, ∀ allowance,
      Explained program ticks fewer allowance body) :
    Explained program ticks left allowance (.fresh name body) := by
  intro scope scope' place s b b' n plain scopes states shown forced supply
  cases introduced : b.state.fresh? with
  | none =>
      rw [searchAt_fresh_of_none program allowance scope' place name body
        introduced, Stream.sight_of_next_none rfl] at shown
      cases shown
  | some pair =>
      rcases pair with ⟨x, started⟩
      rw [searchAt_fresh program allowance scope' place name body introduced]
        at shown forced
      obtain ⟨_, introduced', rfl, similar⟩ := states.symm.fresh? introduced
      obtain ⟨sameId, rfl⟩ := State.fresh?_eq_some_iff.1 introduced
      have fewer : Var.capacity - (b.state.counter + 1) < left := by
        have inRange := x.inRange
        omega
      obtain ⟨s', derivation, landed⟩ := onBody _ fewer program.allowance plain
        (.cons ⟨rfl, Term.eqv_refl _⟩ scopes) (b := b.advanced) similar.symm
        shown forced (Nat.le_refl _)
      exact ⟨s', .fresh x introduced' derivation, landed⟩

theorem explained_suspend {body : Goal}
    (onBody : ∀ fewer < ticks, ∀ left allowance,
      Explained program fewer left allowance body) :
    Explained program ticks left allowance (.suspend body) := by
  intro scope scope' place s b b' n plain scopes states shown forced supply
  have step := next_searchAt_suspend program allowance scope' place b body
  cases n with
  | zero =>
      rw [Stream.sight_zero_of_next step] at shown
      cases shown
  | succ n =>
      rw [Stream.sight_succ_of_next step] at shown
      rw [Stream.ticks_succ_of_next step, Sight.forced, Nat.add_comm] at forced
      obtain ⟨s', derivation, landed⟩ := onBody _ forced left
        program.allowance plain scopes states shown (Nat.le_refl _) supply
      refine ⟨s', .suspend derivation, ?_⟩
      rw [Derivation.landing, landed]

theorem explained_always
    (unfolded : Explained program ticks left allowance
      (.suspend (.disj .succeed .always))) :
    Explained program ticks left allowance .always := by
  intro scope scope' place s b b' n _ _ states shown forced supply
  rw [searchAt_always] at shown forced
  obtain ⟨s', derivation, landed⟩ :=
    unfolded rfl (.refl []) states shown forced supply
  exact ⟨s', .always derivation, landed⟩

theorem explained_call (plainProgram : program.isPlain = true) (name : String)
    (arguments : List Expr)
    (onFewerTicks : ∀ fewer < ticks, ∀ left allowance goal,
      Explained program fewer left allowance goal)
    (onLessAllowance : ∀ less < allowance, ∀ goal,
      Explained program ticks left less goal) :
    Explained program ticks left allowance (.call name arguments) := by
  intro scope scope' place s b b' n plain scopes states shown forced supply
  cases found : program.find? name with
  | none =>
      rw [searchAt_call_of_none allowance scope' place b arguments found,
        Stream.sight_of_next_none rfl] at shown
      cases shown
  | some relation =>
      have body := Program.every_body plainProgram found
      have inner := relation.scope_build_similar plain scopes (.root 0)
        (.part 0 place)
      cases allowance with
      | zero =>
          have step := next_searchAt_call_zero scope' place b arguments found
          cases n with
          | zero =>
              rw [Stream.sight_zero_of_next step] at shown
              cases shown
          | succ n =>
              rw [Stream.sight_succ_of_next step] at shown
              rw [Stream.ticks_succ_of_next step, Sight.forced,
                Nat.add_comm] at forced
              obtain ⟨s', derivation, landed⟩ := onFewerTicks _ forced left
                program.allowance relation.body body inner states shown
                (Nat.le_refl _) supply
              refine ⟨s', .call relation found derivation, ?_⟩
              rw [Derivation.landing, landed]
      | succ allowance =>
          rw [searchAt_call allowance scope' place b arguments found]
            at shown forced
          obtain ⟨s', derivation, landed⟩ := onLessAllowance allowance
            (Nat.lt_succ_self _) relation.body body inner states shown forced
            supply
          exact ⟨s', .call relation found derivation, landed⟩

/-- Every element of a search is the landing of a derivation. -/
theorem explained (plainProgram : program.isPlain = true)
    (ticks left allowance : Nat) (goal : Goal) :
    Explained program ticks left allowance goal := by
  induction ticks using Nat.strong_induction_on generalizing left allowance goal with
  | _ ticks onFewerTicks =>
  induction left using Nat.strong_induction_on generalizing allowance goal with
  | _ left onFewerLeft =>
  induction allowance using Nat.strong_induction_on generalizing goal with
  | _ allowance onLessAllowance =>
  induction goal with
  | succeed => exact explained_succeed
  | fail => exact explained_fail
  | never => exact explained_never
  | always =>
      exact explained_always (explained_suspend
        fun fewer less left allowance => onFewerTicks fewer less left allowance _)
  | eq first second => exact explained_eq first second
  | disj first second onFirst onSecond => exact explained_disj onFirst onSecond
  | conj first second onFirst onSecond =>
      exact explained_conj plainProgram onFirst onSecond
  | fresh name body _ =>
      exact explained_fresh name
        fun fewer less allowance => onFewerLeft fewer less allowance body
  | suspend body _ =>
      exact explained_suspend
        fun fewer less left allowance => onFewerTicks fewer less left allowance body
  | call name arguments =>
      exact explained_call plainProgram name arguments onFewerTicks
        onLessAllowance
  | times count => exact explained_times count

/-! ### The search that runs -/

/-- The search of a goal from a state, as it runs. -/
def applyTo (program : Program) (goal : Goal) (scope : Scope) (place : Place)
    (s : State) : Traced Event Search :=
  (goal.build program scope place).apply program (.root s)

theorem sight_applyTo {goal : Goal} {scope : Scope} {place : Place} {s : State}
    {n : Nat}
    (calm : (goal.applyTo program scope place s).Calm program.rules n) :
    (goal.applyTo program scope place s).value.sight program.rules n =
      (goal.searchAt program program.allowance scope place (.root s)).sight
        program.described n :=
  calm.sight_described

/-- What a search shows before the variables run out comes from a derivation,
and is in a state equal to the derived one. -/
theorem exists_derivation_of_sight (plainProgram : program.isPlain = true)
    {goal : Goal} (plain : goal.isPlain = true) {scope : Scope} {place : Place}
    {s : State} {n : Nat} {b : Branch}
    (calm : (goal.applyTo program scope place s).Calm program.rules n)
    (shown : (goal.applyTo program scope place s).value.sight program.rules n =
      some (.yield b)) :
    ∃ (s' : State) (derivation : Derivation program goal scope s s'),
      derivation.landing program.allowance scope place (.root s) = (n, b) ∧
        s'.Similar b.state := by
  have states : s.Similar (Branch.root s).state := .refl s
  rw [sight_applyTo calm] at shown
  obtain ⟨s', derivation, landed⟩ := explained plainProgram _ _ _ goal plain
    (.refl scope) states shown (Nat.le_refl _) (Nat.le_refl _)
  have reached := (derivation.sight_landing plainProgram plain (.refl scope)
    states program.allowance place).2
  rw [landed] at reached
  exact ⟨s', derivation, landed, reached⟩

/-- The search of a goal shows every derivation exactly once: derivations have
positions of their own, and as long as the variables last, the elements of the
search stand at these positions, each in a state equal to the derived one. -/
theorem search_enumerates (plainProgram : program.isPlain = true) {goal : Goal}
    (plain : goal.isPlain = true) (scope : Scope) (place : Place) (s : State) :
    ∃ position : (Σ s', Derivation program goal scope s s') → Nat,
      Function.Injective position ∧
      (∀ n, (goal.applyTo program scope place s).Calm program.rules n →
        (∀ derivation, position derivation = n →
          ∃ b, (goal.applyTo program scope place s).value.sight program.rules
            n = some (.yield b) ∧ derivation.1.eqv b.state = true) ∧
        ∀ b, (goal.applyTo program scope place s).value.sight program.rules
          n = some (.yield b) → ∃ derivation, position derivation = n) ∧
      ((∀ n, (goal.applyTo program scope place s).Calm program.rules n) →
        Set.BijOn position Set.univ
          { n | ∃ b, (goal.applyTo program scope place s).value.sight
            program.rules n = some (.yield b) }) := by
  have scopes := Scope.Similar.refl scope
  have states : s.Similar (Branch.root s).state := State.Similar.refl s
  let position : (Σ s', Derivation program goal scope s s') → Nat :=
    fun derivation => (derivation.2.landing program.allowance scope place
      (.root s)).1
  have injective : Function.Injective position := by
    intro derivation derivation' same
    exact derivation.2.landing_injective plainProgram derivation'.2 plain
      scopes states program.allowance place same
  have forth : ∀ n,
      (goal.applyTo program scope place s).Calm program.rules n →
      ∀ derivation, position derivation = n →
        ∃ b, (goal.applyTo program scope place s).value.sight program.rules
          n = some (.yield b) ∧ derivation.1.eqv b.state = true := by
    intro n calm derivation placed
    obtain ⟨shown, similar⟩ := derivation.2.sight_landing plainProgram plain
      scopes states program.allowance place
    refine ⟨_, ?_, State.eqv_iff_similar.2 similar⟩
    rw [sight_applyTo calm, ← placed]
    exact shown
  have back : ∀ n,
      (goal.applyTo program scope place s).Calm program.rules n →
      ∀ b, (goal.applyTo program scope place s).value.sight program.rules
        n = some (.yield b) → ∃ derivation, position derivation = n := by
    intro n calm b shown
    obtain ⟨s', derivation, landed, _⟩ :=
      exists_derivation_of_sight plainProgram plain calm shown
    exact ⟨⟨s', derivation⟩, congrArg Prod.fst landed⟩
  refine ⟨position, injective, fun n calm => ⟨forth n calm, back n calm⟩, ?_⟩
  intro calm
  refine ⟨?_, injective.injOn, ?_⟩
  · intro derivation _
    obtain ⟨b, shown, _⟩ := forth _ (calm _) derivation rfl
    exact ⟨b, shown⟩
  · intro n element
    rcases element with ⟨b, shown⟩
    obtain ⟨derivation, placed⟩ := back n (calm n) b shown
    exact ⟨derivation, trivial, placed⟩

/-- The three ways in which a new variable can be introduced and one of two
goals hold, the second one twice. -/
theorem search_enumerates_three :
    ∃ position : (Σ s', Derivation []
        (.fresh "x" (.disj .succeed (.times 2))) [] .empty s') → Nat,
      Set.BijOn position Set.univ
        { n | ∃ b, ((Goal.fresh "x" (.disj .succeed (.times 2))).applyTo []
          [] (.root 0) .empty).value.sight (Program.rules []) n =
            some (.yield b) } := by
  obtain ⟨position, _, _, bijective⟩ := @search_enumerates [] rfl
    (.fresh "x" (.disj .succeed (.times 2))) rfl [] (.root 0) .empty
  exact ⟨position, bijective (Traced.calm_of_finite (by decide) (by decide))⟩

end Goal

end Relational
