/-
Module: Relational.Proofs.Fairness
Purpose: No alternative of a disjunction is held up by the others, and no
  result of binding by another one.
Main exports: Stream.leftPlace_le, Stream.rightPlace_le, Stream.extent,
  Stream.merge_interleaves, Stream.bindPlace_le, Stream.bind_interleaves,
  Stream.mergeAllPlace, Stream.Spread, Stream.spread_mergeAll,
  Goal.alternatives, Goal.disjAll_fair
-/
import Mathlib.Algebra.Group.Nat.Defs
import Mathlib.Data.Set.Lattice
import Mathlib.Order.CompletePartialOrder
import Relational.Proofs.Combinators
import Relational.Proofs.Enumeration
import Relational.Proofs.Indifference

namespace Relational

/-!
The two sides of a merge take turns, so what one side shows at a position stands
at most at about twice that position in the merge, and whatever the other side
does cannot move it further back.  A disjunction of many goals is a merge of a
merge of a merge, and each level doubles the delay of all goals behind it.  This
is a law of merges, so it does not matter what the goals are.
-/

namespace Stream

variable {ε ι κ α : Type} (rules : Rules ε ι κ α)

theorem leftPlace_le (left right : Stream ι κ α) (n : Nat) :
    left.leftPlace rules right n ≤ 2 * n := by
  induction n generalizing left right with
  | zero => exact Nat.le_refl _
  | succ n earlier =>
      rw [leftPlace]
      split
      · rename_i _ left' _ right' _ _
        have before := earlier left' right'
        omega
      · omega

theorem rightPlace_le (left right : Stream ι κ α) (n : Nat) :
    left.rightPlace rules right n ≤ 2 * n + 1 := by
  rw [rightPlace]
  split
  · omega
  · exact Nat.succ_le_succ (leftPlace_le ..)

theorem leftPlace_lt_succ (left right : Stream ι κ α) (n : Nat) :
    left.leftPlace rules right n < left.leftPlace rules right (n + 1) := by
  induction n generalizing left right with
  | zero => exact Nat.lt_of_lt_of_le Nat.one_pos (le_leftPlace left right 1)
  | succ n earlier =>
      rw [leftPlace, leftPlace]
      split
      · exact Nat.add_lt_add_right (earlier _ _) 2
      · exact Nat.lt_succ_self _

/-- A merge keeps the order in which its left side shows things. -/
theorem leftPlace_strictMono (left right : Stream ι κ α) :
    StrictMono (left.leftPlace rules right) :=
  strictMono_nat_of_lt_succ (leftPlace_lt_succ rules left right)

/-- A merge keeps the order in which its right side shows things. -/
theorem rightPlace_strictMono (left right : Stream ι κ α) :
    StrictMono (left.rightPlace rules right) := by
  intro k n earlier
  rw [rightPlace, rightPlace]
  split
  · exact earlier
  · exact Nat.succ_lt_succ (leftPlace_strictMono rules right _ earlier)

/-- The positions at which something is seen of a stream. -/
def extent (s : Stream ι κ α) : Set Nat :=
  {n | ∃ seen, s.sight rules n = some seen}

variable {rules} in
/-- The two sides fill the positions of their merge. -/
theorem extent_merge (left right : Stream ι κ α) :
    (left.merge right).extent rules =
      left.leftPlace rules right '' left.extent rules ∪
        left.rightPlace rules right '' right.extent rules := by
  ext n
  constructor
  · rintro ⟨seen, shown⟩
    rcases exists_place_of_sight_merge shown with
      ⟨k, shown, place⟩ | ⟨k, shown, place⟩
    · exact Or.inl ⟨k, ⟨seen, shown⟩, place⟩
    · exact Or.inr ⟨k, ⟨seen, shown⟩, place⟩
  · rintro (⟨k, ⟨seen, shown⟩, rfl⟩ | ⟨k, ⟨seen, shown⟩, rfl⟩)
    · exact ⟨seen, sight_leftPlace right shown⟩
    · exact ⟨seen, sight_rightPlace left shown⟩

/-- Merging loses and doubles nothing, keeps the order of either side, and
delays it at most by a factor of two.  The positions of the merge fall into two
parts without overlap: one shows what the left side shows, in its order, and the
other one what the right side shows. -/
theorem merge_interleaves (left right : Stream ι κ α) :
    ∃ ofLeft ofRight : Nat → Nat,
      (StrictMono ofLeft ∧ StrictMono ofRight) ∧
      ((∀ k ∈ left.extent rules, (left.merge right).sight rules (ofLeft k) =
          left.sight rules k) ∧
        ∀ k ∈ right.extent rules, (left.merge right).sight rules (ofRight k) =
          right.sight rules k) ∧
      Disjoint (ofLeft '' left.extent rules)
        (ofRight '' right.extent rules) ∧
      ofLeft '' left.extent rules ∪ ofRight '' right.extent rules =
        (left.merge right).extent rules ∧
      ∀ k, ofLeft k ≤ 2 * k ∧ ofRight k ≤ 2 * k + 1 := by
  refine ⟨left.leftPlace rules right, left.rightPlace rules right,
    ⟨leftPlace_strictMono rules left right,
      rightPlace_strictMono rules left right⟩, ⟨?_, ?_⟩, ?_,
    (extent_merge left right).symm,
    fun k => ⟨leftPlace_le rules left right k,
      rightPlace_le rules left right k⟩⟩
  · rintro k ⟨seen, shown⟩
    rw [sight_leftPlace right shown, shown]
  · rintro k ⟨seen, shown⟩
    rw [sight_rightPlace left shown, shown]
  · rw [Set.disjoint_left]
    rintro n ⟨k, ⟨seen, shown⟩, rfl⟩ ⟨k', ⟨seen', shown'⟩, same⟩
    exact leftPlace_ne_rightPlace shown shown' same.symm

/-- One more turn at most doubles a delay. -/
theorem le_doubled {place inner turns n : Nat} (turn : place ≤ 2 * inner + 1)
    (bound : inner ≤ 2 ^ turns * (2 * n + 1) - 1) :
    place ≤ 2 ^ (turns + 1) * (2 * n + 1) - 1 := by
  have positive : 0 < 2 ^ turns * (2 * n + 1) :=
    Nat.mul_pos (Nat.two_pow_pos turns) (Nat.succ_pos _)
  rw [pow_succ, Nat.mul_comm (2 ^ turns), Nat.mul_assoc]
  omega

/-! ### Binding

Every element in front of an element has a result of its own, which takes turns
with all that follows.  So the position of an element counts how often its
result has to wait for its turn, and neither a result without end nor a stream
without end can hold up another result for longer. -/

/-- The positions at which a stream has to be forced. -/
def pauses (s : Stream ι κ α) : Set Nat :=
  {n | s.sight rules n = some .tick}

/-- Every step in front of an element at most doubles the delay of its
result. -/
theorem bindPlace_le (continuation : κ) (s : Stream ι κ α) (n j : Nat) :
    s.bindPlace rules continuation n j ≤ 2 ^ n * (2 * j + 1) - 1 := by
  fun_induction bindPlace rules continuation s n j with
  | case1 a rest j =>
      have place := (rules.apply continuation a).value.leftPlace_le rules
        (rest.bind rules continuation).value j
      omega
  | case2 a rest n j inside =>
      exact le_doubled (rightPlace_le rules _ _ _) inside
  | case3 suspension n j inside => exact le_doubled (by omega) inside
  | case4 => exact Nat.zero_le _

variable {rules} in
/-- Binding keeps the order in which the result for an element shows things. -/
theorem bindPlace_strictMono (continuation : κ) {s : Stream ι κ α} {n : Nat}
    {a : α} (element : s.sight rules n = some (.yield a)) :
    StrictMono (s.bindPlace rules continuation n) := by
  induction n generalizing s with
  | zero =>
      cases s with
      | nil => cases element
      | cons b rest => exact leftPlace_strictMono rules _ _
      | delay suspension => cases element
  | succ n earlier =>
      cases s with
      | nil => cases element
      | cons b rest =>
          exact (rightPlace_strictMono rules _ _).comp (earlier element)
      | delay suspension =>
          intro j j' before
          exact Nat.succ_lt_succ (earlier element before)

/-- Binding keeps the order in which the stream is forced. -/
theorem tickPlace_strictMonoOn (continuation : κ) (s : Stream ι κ α) :
    StrictMonoOn (s.tickPlace rules continuation) (s.pauses rules) := by
  intro n forced n' forced' before
  induction n generalizing s n' with
  | zero =>
      cases s with
      | nil => cases forced
      | cons a rest => cases forced
      | delay suspension =>
          cases n' with
          | zero => cases before
          | succ n' => exact Nat.succ_pos _
  | succ n earlier =>
      cases n' with
      | zero => cases before
      | succ n' =>
          have sooner : n < n' := Nat.lt_of_succ_lt_succ before
          cases s with
          | nil => cases forced
          | cons a rest =>
              exact rightPlace_strictMono rules _ _
                (earlier rest forced forced' sooner)
          | delay suspension =>
              exact Nat.succ_lt_succ
                (earlier (suspension.force rules).value forced forced' sooner)

/-- The suspensions of the stream and the results for its elements fill the
positions of binding. -/
theorem extent_bind (s : Stream ι κ α) (continuation : κ) :
    (s.bind rules continuation).value.extent rules =
      s.tickPlace rules continuation '' s.pauses rules ∪
        ⋃ (n) (a) (_ : s.sight rules n = some (.yield a)),
          s.bindPlace rules continuation n ''
            (rules.apply continuation a).value.extent rules := by
  ext m
  simp only [Set.mem_union, Set.mem_iUnion]
  constructor
  · rintro ⟨seen, shown⟩
    rcases exists_place_of_sight_bind shown with
      ⟨n, forced, _, place⟩ | ⟨n, a, j, element, shown, place⟩
    · exact Or.inl ⟨n, forced, place⟩
    · exact Or.inr ⟨n, a, element, j, ⟨seen, shown⟩, place⟩
  · rintro (⟨n, forced, rfl⟩ | ⟨n, a, element, j, ⟨seen, shown⟩, rfl⟩)
    · exact ⟨.tick, sight_tickPlace continuation forced⟩
    · exact ⟨seen, sight_bindPlace element shown⟩

/-- Binding reaches every step of the result for every element once, keeps the
order of each result, and delays it by a bound that depends on the position of
the element only.  The positions of binding fall into parts without overlap: one
shows the suspensions of the stream, in their order, and for each element there
is one that shows what the result for the element shows, in its order.  An
element at position `n` of the stream has step `j` of its result at position
`2 ^ n * (2 * j + 1) - 1` at the latest. -/
theorem bind_interleaves (s : Stream ι κ α) (continuation : κ) :
    ∃ (ofTick : Nat → Nat) (ofResult : Nat → Nat → Nat),
      (StrictMonoOn ofTick (s.pauses rules) ∧
        ∀ n a, s.sight rules n = some (.yield a) →
          StrictMono (ofResult n)) ∧
      ((∀ n ∈ s.pauses rules, (s.bind rules continuation).value.sight rules
          (ofTick n) = some .tick) ∧
        ∀ n a, s.sight rules n = some (.yield a) →
          ∀ j ∈ (rules.apply continuation a).value.extent rules,
            (s.bind rules continuation).value.sight rules (ofResult n j) =
              (rules.apply continuation a).value.sight rules j) ∧
      ((∀ n a, s.sight rules n = some (.yield a) →
          Disjoint (ofTick '' s.pauses rules) (ofResult n ''
            (rules.apply continuation a).value.extent rules)) ∧
        ∀ n a n' a', s.sight rules n = some (.yield a) →
          s.sight rules n' = some (.yield a') → n ≠ n' →
            Disjoint
              (ofResult n '' (rules.apply continuation a).value.extent rules)
              (ofResult n' ''
                (rules.apply continuation a').value.extent rules)) ∧
      (ofTick '' s.pauses rules ∪
        ⋃ (n) (a) (_ : s.sight rules n = some (.yield a)),
          ofResult n '' (rules.apply continuation a).value.extent rules) =
        (s.bind rules continuation).value.extent rules ∧
      ∀ n j, ofResult n j ≤ 2 ^ n * (2 * j + 1) - 1 := by
  refine ⟨s.tickPlace rules continuation, s.bindPlace rules continuation,
    ⟨tickPlace_strictMonoOn rules continuation s,
      fun n a => bindPlace_strictMono continuation⟩, ⟨?_, ?_⟩, ⟨?_, ?_⟩,
    (extent_bind rules s continuation).symm, bindPlace_le rules continuation s⟩
  · exact fun n forced => sight_tickPlace continuation forced
  · rintro n a element j ⟨seen, shown⟩
    rw [sight_bindPlace element shown, shown]
  · intro n a element
    rw [Set.disjoint_left]
    rintro m ⟨k, forced, rfl⟩ ⟨j, ⟨seen, shown⟩, same⟩
    exact tickPlace_ne_bindPlace forced element shown same.symm
  · intro n a n' a' element element' different
    rw [Set.disjoint_left]
    rintro m ⟨j, ⟨seen, shown⟩, rfl⟩ ⟨j', ⟨seen', shown'⟩, same⟩
    exact different
      (bindPlace_injective element' element shown' shown same).1.symm

/-! ### Many streams -/

/-- Where the merge of streams shows what the stream with the given index shows
at a position. -/
def mergeAllPlace : List (Stream ι κ α) → Nat → Nat → Nat
  | s :: next :: rest, 0, n => s.leftPlace rules (mergeAll (next :: rest)) n
  | s :: next :: rest, index + 1, n =>
    s.rightPlace rules (mergeAll (next :: rest))
      (mergeAllPlace (next :: rest) index n)
  | _, _, n => n

/-- Every stream in front at most doubles the delay. -/
theorem mergeAllPlace_le (streams : List (Stream ι κ α)) (index n : Nat) :
    mergeAllPlace rules streams index n ≤ 2 ^ index * (2 * n + 1) - 1 := by
  fun_induction mergeAllPlace rules streams index n with
  | case1 s next rest n =>
      have place := s.leftPlace_le rules (mergeAll (next :: rest)) n
      omega
  | case2 s next rest index n inside =>
      exact le_doubled (s.rightPlace_le rules _ _) inside
  | case3 streams index n =>
      have factor : 2 * n + 1 ≤ 2 ^ index * (2 * n + 1) :=
        Nat.le_mul_of_pos_left _ (Nat.two_pow_pos index)
      omega

variable {rules}

theorem sight_mergeAllPlace (streams : List (Stream ι κ α)) {index : Nat}
    {s : Stream ι κ α} (chosen : streams[index]? = some s) {n : Nat}
    {seen : Sight α} (shown : s.sight rules n = some seen) :
    (mergeAll streams).sight rules (mergeAllPlace rules streams index n) =
      some seen := by
  induction streams generalizing index with
  | nil => cases chosen
  | cons first rest onRest =>
      cases rest with
      | nil =>
          cases index with
          | zero =>
              obtain rfl := Option.some.inj chosen
              exact shown
          | succ index => cases chosen
      | cons next rest =>
          cases index with
          | zero =>
              obtain rfl := Option.some.inj chosen
              exact sight_leftPlace _ shown
          | succ index => exact sight_rightPlace _ (onRest chosen)

/-- No two steps of the streams have one place. -/
theorem mergeAllPlace_injective {streams : List (Stream ι κ α)}
    {index index' : Nat} {s s' : Stream ι κ α}
    (chosen : streams[index]? = some s) (chosen' : streams[index']? = some s')
    {n n' : Nat} {seen seen' : Sight α} (shown : s.sight rules n = some seen)
    (shown' : s'.sight rules n' = some seen')
    (same : mergeAllPlace rules streams index n =
      mergeAllPlace rules streams index' n') :
    index = index' ∧ n = n' := by
  induction streams generalizing index index' with
  | nil => cases chosen
  | cons first rest onRest =>
      cases rest with
      | nil =>
          cases index with
          | zero =>
              cases index' with
              | zero => exact ⟨rfl, same⟩
              | succ index' => cases chosen'
          | succ index => cases chosen
      | cons next rest =>
          cases index with
          | zero =>
              obtain rfl := Option.some.inj chosen
              cases index' with
              | zero =>
                  obtain rfl := Option.some.inj chosen'
                  exact ⟨rfl, leftPlace_inj shown shown' same⟩
              | succ index' =>
                  exact absurd same (leftPlace_ne_rightPlace shown
                    (sight_mergeAllPlace (next :: rest) chosen' shown'))
          | succ index =>
              have later := sight_mergeAllPlace (next :: rest) chosen shown
              cases index' with
              | zero =>
                  obtain rfl := Option.some.inj chosen'
                  exact absurd same.symm
                    (leftPlace_ne_rightPlace shown' later)
              | succ index' =>
                  have later' :=
                    sight_mergeAllPlace (next :: rest) chosen' shown'
                  obtain ⟨sameIndex, samePosition⟩ := onRest chosen chosen'
                    (rightPlace_inj later later' same)
                  exact ⟨congrArg Nat.succ sameIndex, samePosition⟩

variable (rules) in
/-- Every step of the streams has a position of its own in the whole, which is
bounded by the number of streams in front and by the position of the step in its
own stream. -/
structure Spread (streams : List (Stream ι κ α)) (whole : Stream ι κ α)
    (position : Nat → Nat → Nat) : Prop where
  bound : ∀ index k, position index k ≤ 2 ^ index * (2 * k + 1) - 1
  shown : ∀ {index : Nat} {s : Stream ι κ α} {k : Nat} {seen : Sight α},
    streams[index]? = some s → s.sight rules k = some seen →
      whole.sight rules (position index k) = some seen
  apart : ∀ {index index' : Nat} {s s' : Stream ι κ α} {k k' : Nat}
      {seen seen' : Sight α},
    streams[index]? = some s → streams[index']? = some s' →
      s.sight rules k = some seen → s'.sight rules k' = some seen' →
        position index k = position index' k' → index = index' ∧ k = k'

/-- A merge of many streams holds none of them up. -/
theorem spread_mergeAll (streams : List (Stream ι κ α)) :
    Spread rules streams (mergeAll streams) (mergeAllPlace rules streams) where
  bound := mergeAllPlace_le rules streams
  shown chosen := sight_mergeAllPlace streams chosen
  apart chosen chosen' := mergeAllPlace_injective chosen chosen'

end Stream

/-- A disjunction holds none of its goals up, whatever the goals are. -/
theorem Rules.Combinators.spread_disjAll {ε ι κ α : Type}
    {rules : Rules ε ι κ α} (combinators : rules.Combinators) {goals : List κ}
    {a : α}
    (calm : (rules.apply (combinators.disjAll goals) a).events.any
      rules.isFatal = false) :
    ∃ position, Stream.Spread rules
      ((combinators.starts goals a).map fun start =>
        (rules.apply start.1 start.2).value)
      (rules.apply (combinators.disjAll goals) a).value position := by
  rw [combinators.value_apply_disjAll calm]
  exact ⟨_, Stream.spread_mergeAll _⟩

namespace Goal

variable {program : Program}

/-- The goals of a disjunction as they are built and applied in it, each at its
place and on its branch. -/
def alternatives (scope : Scope) : List Goal → Place → Branch → List Task
  | [], _, _ => []
  | [last], place, b => [⟨⟨last, scope, place⟩, b⟩]
  | goal :: rest, place, b =>
    ⟨⟨goal, scope, .part 0 place⟩, b.choose 0⟩ ::
      alternatives scope rest (.part 1 place) (b.choose 1)

/-- The alternatives are the goals, in one scope and from one state. -/
theorem exists_alternative {scope : Scope} {goals : List Goal} (place : Place)
    (b : Branch) {index : Nat} {goal : Goal}
    (chosen : goals[index]? = some goal) :
    ∃ place' b', (alternatives scope goals place b)[index]? =
        some ⟨⟨goal, scope, place'⟩, b'⟩ ∧ b'.state = b.state := by
  fun_induction alternatives scope goals place b generalizing index with
  | case1 => cases chosen
  | case2 last place b =>
      cases index with
      | zero =>
          obtain rfl := Option.some.inj chosen
          exact ⟨place, b, rfl, rfl⟩
      | succ index => cases chosen
  | case3 first rest place b several onRest =>
      cases index with
      | zero =>
          obtain rfl := Option.some.inj chosen
          exact ⟨_, _, rfl, rfl⟩
      | succ index => exact onRest chosen

/-- The alternatives are what the disjunction of the plans starts. -/
theorem starts_plans (scope : Scope) (goals : List Goal) (place : Place)
    (b : Branch) :
    program.combinators.starts (plans program scope goals place) b =
      (alternatives scope goals place b).map fun task =>
        (task.body.build program, task.branch) := by
  fun_induction alternatives scope goals place b with
  | case1 => rfl
  | case2 => rfl
  | case3 first rest place b several onRest =>
      rw [plans, Rules.Combinators.starts]
      · exact congrArg _ onRest
      · exact plans_ne_nil several
      · exact several

/-- Goals that are any functions are not held up by each other in a disjunction.
Every step of every goal has a position of its own in the search of the
disjunction.  It is bounded by the number of goals in front and by the position
of the step in the search of the goal, whatever the other goals do.

Goals of the language are built at places and applied on branches of their own
in the disjunction.  What is seen at the positions is what they show there; if
no value differs from itself, it is also what they show when they are applied
on their own. -/
theorem disjAll_fair :
    (∀ {ε ι α γ : Type}
        (given : γ → α → Traced ε (Stream ι (Composite γ) α))
        (run : ι → Traced ε (Stream ι (Composite γ) α)) (isFatal : ε → Bool)
        (goals : List (Composite γ)) (a : α),
      ((Composite.rules given run isFatal).apply
          ((Composite.combinators given run isFatal).disjAll goals)
          a).events.any isFatal = false →
      ∃ position, Stream.Spread (Composite.rules given run isFatal)
        (goals.map fun goal =>
          ((Composite.rules given run isFatal).apply goal a).value)
        ((Composite.rules given run isFatal).apply
          ((Composite.combinators given run isFatal).disjAll goals) a).value
        position) ∧
    ∀ (program : Program) (scope : Scope) (goals : List Goal) (place : Place)
        (s : State),
      ((disjAll goals).applyTo program scope place s).events.any
        Event.isFatal = false →
      ∃ position,
        Stream.Spread program.rules
          ((alternatives scope goals place (.root s)).map fun task =>
            (program.rules.run task).value)
          ((disjAll goals).applyTo program scope place s).value position ∧
        (program.isPlain = true → ∀ index goal place' k seen,
          goals[index]? = some goal → goal.isPlain = true →
          (goal.applyTo program scope place' s).value.sight program.rules k =
            some seen →
          ∃ seen', ((disjAll goals).applyTo program scope place s).value.sight
              program.rules (position index k) = some seen' ∧
            Sight.Related (fun b b' => b.state.eqv b'.state = true) seen
              seen') := by
  constructor
  · intro ε ι α γ given run isFatal goals a applied
    obtain ⟨position, spread⟩ := (Composite.combinators given run
      isFatal).spread_disjAll applied
    rw [Rules.Combinators.starts_eq_map _ fun _ _ => rfl,
      List.map_map] at spread
    exact ⟨position, spread⟩
  · intro program scope goals place s applied
    rw [applyTo, build_disjAll] at applied ⊢
    obtain ⟨position, spread⟩ := program.combinators.spread_disjAll applied
    rw [starts_plans, List.map_map] at spread
    refine ⟨position, spread, ?_⟩
    intro plainProgram index goal place' k seen chosen plain shown
    obtain ⟨place'', b, chosenTask, sameState⟩ :=
      exists_alternative place (.root s) chosen
    obtain ⟨seen', shown', alike⟩ := exists_sight_elsewhere plainProgram plain
      scope place' place'' (b := .root s) sameState.symm shown
    refine ⟨seen', spread.shown ?_ shown', alike⟩
    rw [List.getElem?_map, chosenTask, Option.map_some]
    rfl

/-- Behind a goal that goes on without an answer and one that holds without end
there is room for a third one: its second answer is among the first twelve
steps.  Of two functions, one that is put off for ever does not hold up the
other one. -/
theorem disjAll_fair_third :
    (∃ n ≤ 11, ((disjAll [.never, .always, .times 2]).applyTo [] [] (.root 0)
        .empty).value.sight (Program.rules []) n =
          some (.yield ⟨.empty, [1, 1, 1]⟩) ∧
      ∃ seen', ((disjAll [.never, .always, .times 2]).applyTo [] [] (.root 0)
          .empty).value.sight (Program.rules []) n = some seen' ∧
        Sight.Related (fun b b' => b.state.eqv b'.state = true)
          (.yield ⟨.empty, [1]⟩) seen') ∧
    let given : Bool → Nat → Traced Empty (Stream Unit (Composite Bool) Nat) :=
      fun endless a => if endless then .pure (.delay (.task ())) else
        .pure (.ofList [a, a + 1])
    let rules := Composite.rules given
      (fun _ => .pure (.delay (.task ()))) fun _ => false
    ∃ n ≤ 5, (rules.apply (.disj (.given true) (.given false))
      5).value.sight rules n = some (.yield 6) := by
  constructor
  · obtain ⟨position, spread, alone⟩ :=
      disjAll_fair.2 [] [] [.never, .always, .times 2] (.root 0) .empty rfl
    have third : ((alternatives [] [.never, .always, .times 2] (.root 0)
        (.root .empty)).map fun task =>
          ((Program.rules []).run task).value)[2]? =
            some ((Program.rules []).run ⟨⟨.times 2, [],
              .part 1 (.part 1 (.root 0))⟩, ⟨.empty, [1, 1]⟩⟩).value :=
      rfl
    exact ⟨position 2 1, spread.bound 2 1, spread.shown third rfl,
      alone rfl 2 (.times 2) (.root 1) 1 _ rfl rfl rfl⟩
  · intro given rules
    obtain ⟨position, spread⟩ := disjAll_fair.1 given _ _
      [.given true, .given false] 5 rfl
    exact ⟨position 1 1, spread.bound 1 1, spread.shown rfl rfl⟩

end Goal

end Relational
