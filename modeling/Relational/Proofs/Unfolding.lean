/-
Module: Relational.Proofs.Unfolding
Purpose: The unfolding of a stream step by step, and where merging and binding
  put the steps of their operands.
Main exports: Sight, Stream.next, Stream.sight, Stream.ticks,
  Stream.leftPlace, Stream.rightPlace, Stream.sight_merge, Stream.bindPlace,
  Stream.tickPlace, Stream.exists_place_of_sight_bind, Traced.Stops,
  Traced.Calm
-/
import Relational.Stream.Force

namespace Relational

/-!
Whoever consumes a stream sees one thing after the other: an element, or that
a suspension has to be forced.  The unfolding of a stream gives what is seen at
every position, and two streams with the same unfolding cannot be told apart.

Merging interleaves the unfoldings of its two sides.  The places of what is
seen of either side can be computed, and they cover all positions without
overlap.  Binding is merging over and over again, so the places of what is seen
of one result, and of the suspensions of the stream itself, follow from those of
merging.
-/

/-- What is seen of a stream in one step. -/
inductive Sight (α : Type) where
  /-- An element. -/
  | yield (a : α)
  /-- A suspension, which is forced. -/
  | tick
deriving DecidableEq, Repr

/-- How many suspensions are forced in the step. -/
def Sight.forced {α : Type} : Sight α → Nat
  | .yield _ => 0
  | .tick => 1

namespace Stream

variable {ε ι κ α : Type} (rules : Rules ε ι κ α)

/-- What is seen first of a stream, and the stream that follows. -/
def next : Stream ι κ α → Option (Sight α × Stream ι κ α)
  | .nil => none
  | .cons a rest => some (.yield a, rest)
  | .delay suspension => some (.tick, (suspension.force rules).value)

/-- What is seen of a stream at a position, if it goes on that far. -/
def sight : Stream ι κ α → Nat → Option (Sight α)
  | s, 0 => (s.next rules).map Prod.fst
  | s, n + 1 => (s.next rules).bind fun step => step.2.sight n

/-- How many suspensions are forced before a position is reached. -/
def ticks : Stream ι κ α → Nat → Nat
  | _, 0 => 0
  | s, n + 1 =>
    match s.next rules with
    | none => 0
    | some (seen, rest) => seen.forced + rest.ticks n

variable {rules}

theorem sight_of_next_none {s : Stream ι κ α} (ended : s.next rules = none)
    (n : Nat) : s.sight rules n = none := by
  cases n with
  | zero => simp [sight, ended]
  | succ n => simp [sight, ended]

theorem sight_zero_of_next {s rest : Stream ι κ α} {seen : Sight α}
    (step : s.next rules = some (seen, rest)) :
    s.sight rules 0 = some seen := by
  simp [sight, step]

theorem sight_succ_of_next {s rest : Stream ι κ α} {seen : Sight α}
    (step : s.next rules = some (seen, rest)) (n : Nat) :
    s.sight rules (n + 1) = rest.sight rules n := by
  simp [sight, step]

theorem exists_next_of_sight {s : Stream ι κ α} {n : Nat} {seen : Sight α}
    (found : s.sight rules n = some seen) :
    ∃ first rest, s.next rules = some (first, rest) := by
  cases step : s.next rules with
  | none => simp [sight_of_next_none step] at found
  | some pair => exact ⟨pair.1, pair.2, rfl⟩

/-- A finite stream shows its elements. -/
theorem sight_ofList (items : List α) (n : Nat) :
    (ofList items : Stream ι κ α).sight rules n = items[n]?.map .yield := by
  induction items generalizing n with
  | nil => rw [ofList, prependAll_nil, sight_of_next_none rfl]; rfl
  | cons a items onItems =>
      cases n with
      | zero => rfl
      | succ n => exact onItems n

theorem sight_singleton_iff {a : α} {n : Nat} {seen : Sight α} :
    (singleton a : Stream ι κ α).sight rules n = some seen ↔
      n = 0 ∧ seen = .yield a := by
  rw [singleton, ← prependAll_nil .nil, ← prependAll_cons, ← ofList,
    sight_ofList]
  cases n with
  | zero => simp [eq_comm]
  | succ n => simp

/-! ### Merging -/

theorem next_merge_of_none {left right : Stream ι κ α}
    (ended : left.next rules = none) : left.merge right = right := by
  cases left with
  | nil => rfl
  | cons a rest => simp [next] at ended
  | delay suspension => simp [next] at ended

/-- After one step of the left side it is the turn of the right side. -/
theorem next_merge_of_next {left rest right : Stream ι κ α} {seen : Sight α}
    (step : left.next rules = some (seen, rest)) :
    (left.merge right).next rules = some (seen, right.merge rest) := by
  cases left with
  | nil => simp [next] at step
  | cons a rest =>
      simp only [next, Option.some.injEq, Prod.mk.injEq] at step
      rcases step with ⟨rfl, rfl⟩
      rw [merge_cons, next]
  | delay suspension =>
      simp only [next, Option.some.injEq, Prod.mk.injEq] at step
      rcases step with ⟨rfl, rfl⟩
      rw [merge_delay, next, Suspension.force_merge, Traced.value_map]

variable (rules)

/-- Where the merge shows what the left side shows at a position.  The sides
take turns until one of them ends. -/
def leftPlace : Stream ι κ α → Stream ι κ α → Nat → Nat
  | _, _, 0 => 0
  | left, right, n + 1 =>
    match left.next rules, right.next rules with
    | some (_, left'), some (_, right') => left'.leftPlace right' n + 2
    | _, _ => n + 1

/-- Where the merge shows what the right side shows at a position. -/
def rightPlace (left right : Stream ι κ α) (n : Nat) : Nat :=
  match left.next rules with
  | none => n
  | some (_, left') => right.leftPlace rules left' n + 1

/-- Which side a position of the merge comes from, and its position there. -/
def mergeSource : Stream ι κ α → Stream ι κ α → Nat → Nat ⊕ Nat
  | left, _, 0 => if (left.next rules).isSome then .inl 0 else .inr 0
  | left, right, n + 1 =>
    match left.next rules with
    | none => .inr (n + 1)
    | some (_, left') =>
      match right.mergeSource left' n with
      | .inl k => .inr k
      | .inr k => .inl (k + 1)

variable {rules}

theorem leftPlace_succ_of_next {left left' right : Stream ι κ α}
    {seen : Sight α} (step : left.next rules = some (seen, left')) (n : Nat) :
    left.leftPlace rules right (n + 1) =
      right.rightPlace rules left' n + 1 := by
  cases other : right.next rules with
  | none => simp [leftPlace, rightPlace, step, other]
  | some pair => simp [leftPlace, rightPlace, step, other]

theorem rightPlace_of_next {left left' right : Stream ι κ α} {seen : Sight α}
    (step : left.next rules = some (seen, left')) (n : Nat) :
    left.rightPlace rules right n = right.leftPlace rules left' n + 1 := by
  simp [rightPlace, step]

theorem rightPlace_of_none {left right : Stream ι κ α}
    (ended : left.next rules = none) (n : Nat) :
    left.rightPlace rules right n = n := by
  simp [rightPlace, ended]

theorem le_leftPlace (left right : Stream ι κ α) (n : Nat) :
    n ≤ left.leftPlace rules right n := by
  induction n generalizing left right with
  | zero => exact Nat.zero_le _
  | succ n earlier =>
      rw [leftPlace]
      split
      · rename_i _ left' _ right' _ _
        have before := earlier left' right'
        omega
      · exact Nat.le_refl _

theorem le_rightPlace (left right : Stream ι κ α) (n : Nat) :
    n ≤ left.rightPlace rules right n := by
  rw [rightPlace]
  split
  · exact Nat.le_refl _
  · exact Nat.le_succ_of_le (le_leftPlace _ _ n)

theorem mergeSource_of_none {left right : Stream ι κ α}
    (ended : left.next rules = none) (n : Nat) :
    left.mergeSource rules right n = .inr n := by
  cases n with
  | zero => simp [mergeSource, ended]
  | succ n => simp [mergeSource, ended]

/-- A merge shows at every position what its source shows there. -/
theorem sight_merge (left right : Stream ι κ α) (n : Nat) :
    (left.merge right).sight rules n =
      (left.mergeSource rules right n).elim (left.sight rules)
        (right.sight rules) := by
  induction n generalizing left right with
  | zero =>
      cases step : left.next rules with
      | none =>
          rw [next_merge_of_none step, mergeSource_of_none step]
          rfl
      | some pair =>
          rw [sight_zero_of_next (next_merge_of_next step)]
          simp [mergeSource, step, sight_zero_of_next step]
  | succ n earlier =>
      cases step : left.next rules with
      | none =>
          rw [next_merge_of_none step, mergeSource_of_none step]
          rfl
      | some pair =>
          rcases pair with ⟨seen, left'⟩
          rw [sight_succ_of_next (next_merge_of_next step), earlier]
          rw [mergeSource, step]
          cases source : right.mergeSource rules left' n with
          | inl k => simp [source]
          | inr k => simp [source, sight_succ_of_next step]

variable (rules) in
/-- Every position of a merge is the place of what it comes from. -/
theorem place_mergeSource (left right : Stream ι κ α) (n : Nat) :
    (left.mergeSource rules right n).elim (left.leftPlace rules right)
      (left.rightPlace rules right) = n := by
  induction n generalizing left right with
  | zero =>
      cases step : left.next rules with
      | none => simp [mergeSource_of_none step, rightPlace_of_none step]
      | some pair => simp [mergeSource, step, leftPlace]
  | succ n earlier =>
      cases step : left.next rules with
      | none => simp [mergeSource_of_none step, rightPlace_of_none step]
      | some pair =>
          rcases pair with ⟨seen, left'⟩
          have before := earlier right left'
          rw [mergeSource, step]
          cases source : right.mergeSource rules left' n with
          | inl k =>
              rw [source] at before
              simpa [source, rightPlace_of_next step] using before
          | inr k =>
              rw [source] at before
              simpa [source, leftPlace_succ_of_next step] using before

/-- The places of the two sides are apart: a place tells what it comes
from. -/
theorem mergeSource_place (n : Nat) :
    (∀ {left right : Stream ι κ α} {seen : Sight α},
      left.sight rules n = some seen →
        left.mergeSource rules right (left.leftPlace rules right n) =
          .inl n) ∧
    ∀ {left right : Stream ι κ α} {seen : Sight α},
      right.sight rules n = some seen →
        left.mergeSource rules right (left.rightPlace rules right n) =
          .inr n := by
  -- The places of the right side at a position follow from those of the left
  -- side there, and the latter from those of the right side one before.
  have rightOfLeft : ∀ n : Nat,
      (∀ {left right : Stream ι κ α} {seen : Sight α},
        left.sight rules n = some seen →
          left.mergeSource rules right (left.leftPlace rules right n) =
            .inl n) →
      ∀ {left right : Stream ι κ α} {seen : Sight α},
        right.sight rules n = some seen →
          left.mergeSource rules right (left.rightPlace rules right n) =
            .inr n := by
    intro n onLeft left right seen found
    cases step : left.next rules with
    | none => rw [rightPlace_of_none step, mergeSource_of_none step]
    | some pair =>
        rcases pair with ⟨first, left'⟩
        rw [rightPlace_of_next step, mergeSource, step]
        simp [onLeft found]
  induction n with
  | zero =>
      refine ⟨?_, rightOfLeft 0 ?_⟩
      all_goals
        intro left right seen found
        obtain ⟨first, rest, step⟩ := exists_next_of_sight found
        simp [leftPlace, mergeSource, step]
  | succ n earlier =>
      have onLeft : ∀ {left right : Stream ι κ α} {seen : Sight α},
          left.sight rules (n + 1) = some seen →
            left.mergeSource rules right
              (left.leftPlace rules right (n + 1)) = .inl (n + 1) := by
        intro left right seen found
        obtain ⟨first, rest, step⟩ := exists_next_of_sight found
        rw [sight_succ_of_next step] at found
        rw [leftPlace_succ_of_next step, mergeSource, step]
        simp [earlier.2 found]
      exact ⟨onLeft, rightOfLeft (n + 1) onLeft⟩

theorem mergeSource_leftPlace {left : Stream ι κ α} (right : Stream ι κ α)
    {n : Nat} {seen : Sight α} (found : left.sight rules n = some seen) :
    left.mergeSource rules right (left.leftPlace rules right n) = .inl n :=
  (mergeSource_place n).1 found

theorem mergeSource_rightPlace (left : Stream ι κ α) {right : Stream ι κ α}
    {n : Nat} {seen : Sight α} (found : right.sight rules n = some seen) :
    left.mergeSource rules right (left.rightPlace rules right n) = .inr n :=
  (mergeSource_place n).2 found

theorem leftPlace_inj {left right : Stream ι κ α} {n n' : Nat}
    {seen seen' : Sight α} (found : left.sight rules n = some seen)
    (found' : left.sight rules n' = some seen')
    (same : left.leftPlace rules right n = left.leftPlace rules right n') :
    n = n' := by
  have source := mergeSource_leftPlace right found
  rw [same, mergeSource_leftPlace right found', Sum.inl.injEq] at source
  exact source.symm

theorem rightPlace_inj {left right : Stream ι κ α} {n n' : Nat}
    {seen seen' : Sight α} (found : right.sight rules n = some seen)
    (found' : right.sight rules n' = some seen')
    (same : left.rightPlace rules right n = left.rightPlace rules right n') :
    n = n' := by
  have source := mergeSource_rightPlace left found
  rw [same, mergeSource_rightPlace left found', Sum.inr.injEq] at source
  exact source.symm

theorem leftPlace_ne_rightPlace {left right : Stream ι κ α} {n n' : Nat}
    {seen seen' : Sight α} (found : left.sight rules n = some seen)
    (found' : right.sight rules n' = some seen') :
    left.leftPlace rules right n ≠ left.rightPlace rules right n' := by
  intro same
  have source := mergeSource_leftPlace right found
  rw [same, mergeSource_rightPlace left found'] at source
  cases source

theorem sight_leftPlace {left : Stream ι κ α} (right : Stream ι κ α) {n : Nat}
    {seen : Sight α} (found : left.sight rules n = some seen) :
    (left.merge right).sight rules (left.leftPlace rules right n) =
      some seen := by
  rw [sight_merge, mergeSource_leftPlace right found]
  exact found

theorem sight_rightPlace (left : Stream ι κ α) {right : Stream ι κ α} {n : Nat}
    {seen : Sight α} (found : right.sight rules n = some seen) :
    (left.merge right).sight rules (left.rightPlace rules right n) =
      some seen := by
  rw [sight_merge, mergeSource_rightPlace left found]
  exact found

/-- What a merge shows is shown by one of its sides, and stands in its
place. -/
theorem exists_place_of_sight_merge {left right : Stream ι κ α} {n : Nat}
    {seen : Sight α} (found : (left.merge right).sight rules n = some seen) :
    (∃ k, left.sight rules k = some seen ∧ left.leftPlace rules right k = n) ∨
      ∃ k, right.sight rules k = some seen ∧
        left.rightPlace rules right k = n := by
  have place := place_mergeSource rules left right n
  rw [sight_merge] at found
  cases source : left.mergeSource rules right n with
  | inl k =>
      rw [source] at found place
      exact Or.inl ⟨k, found, place⟩
  | inr k =>
      rw [source] at found place
      exact Or.inr ⟨k, found, place⟩

/-! Merging puts nothing forward: before the place of a step at least those
suspensions are forced that its own side forces before it. -/

theorem ticks_succ_of_next {s rest : Stream ι κ α} {seen : Sight α}
    (step : s.next rules = some (seen, rest)) (n : Nat) :
    s.ticks rules (n + 1) = seen.forced + rest.ticks rules n := by
  simp [ticks, step]

variable (rules) in
theorem ticks_le_place (n : Nat) :
    (∀ left right : Stream ι κ α, left.ticks rules n ≤
      (left.merge right).ticks rules (left.leftPlace rules right n)) ∧
    ∀ left right : Stream ι κ α, right.ticks rules n ≤
      (left.merge right).ticks rules (left.rightPlace rules right n) := by
  have rightOfLeft : ∀ n : Nat,
      (∀ left right : Stream ι κ α, left.ticks rules n ≤
        (left.merge right).ticks rules (left.leftPlace rules right n)) →
      ∀ left right : Stream ι κ α, right.ticks rules n ≤
        (left.merge right).ticks rules (left.rightPlace rules right n) := by
    intro n onLeft left right
    cases step : left.next rules with
    | none =>
        apply Nat.le_of_eq
        rw [rightPlace_of_none step, next_merge_of_none step]
    | some pair =>
        have inside := onLeft right pair.2
        rw [rightPlace_of_next step, ticks_succ_of_next
          (next_merge_of_next step)]
        exact Nat.le_trans inside (Nat.le_add_left _ _)
  induction n with
  | zero => exact ⟨by simp [ticks], rightOfLeft 0 (by simp [ticks])⟩
  | succ n earlier =>
      have onLeft : ∀ left right : Stream ι κ α, left.ticks rules (n + 1) ≤
          (left.merge right).ticks rules
            (left.leftPlace rules right (n + 1)) := by
        intro left right
        cases step : left.next rules with
        | none => simp [ticks, step]
        | some pair =>
            have inside := earlier.2 right pair.2
            rw [leftPlace_succ_of_next step, ticks_succ_of_next step,
              ticks_succ_of_next (next_merge_of_next step)]
            exact Nat.add_le_add_left inside _
      exact ⟨onLeft, rightOfLeft (n + 1) onLeft⟩

/-! ### Binding -/

@[simp] theorem value_bind_cons (continuation : κ) (a : α)
    (rest : Stream ι κ α) :
    ((Stream.cons a rest).bind rules continuation).value =
      (rules.apply continuation a).value.merge
        (rest.bind rules continuation).value :=
  value_bindWith_cons (rules.apply continuation) continuation a rest

theorem next_bind_delay (continuation : κ) (suspension : Suspension ι κ α) :
    ((Stream.delay suspension).bind rules continuation).value.next rules =
      some (.tick,
        ((suspension.force rules).value.bind rules continuation).value) := by
  rw [bind, value_bindWith_delay, next, Suspension.force_bind,
    Traced.value_bind]

variable (rules)

/-- Where binding shows what the result for the element at position `n` of the
stream shows at position `j`. -/
def bindPlace (continuation : κ) : Stream ι κ α → Nat → Nat → Nat
  | .cons a rest, 0, j =>
    (rules.apply continuation a).value.leftPlace rules
      (rest.bind rules continuation).value j
  | .cons a rest, n + 1, j =>
    (rules.apply continuation a).value.rightPlace rules
      (rest.bind rules continuation).value (rest.bindPlace continuation n j)
  | .delay suspension, n + 1, j =>
    (suspension.force rules).value.bindPlace continuation n j + 1
  | _, _, _ => 0

/-- Where binding shows the suspension that is forced at position `n` of the
stream. -/
def tickPlace (continuation : κ) : Stream ι κ α → Nat → Nat
  | .cons a rest, n + 1 =>
    (rules.apply continuation a).value.rightPlace rules
      (rest.bind rules continuation).value (rest.tickPlace continuation n)
  | .delay suspension, n + 1 =>
    (suspension.force rules).value.tickPlace continuation n + 1
  | _, _ => 0

variable {rules}

theorem sight_bindPlace {continuation : κ} {s : Stream ι κ α} {n j : Nat}
    {a : α} {seen : Sight α} (element : s.sight rules n = some (.yield a))
    (found : (rules.apply continuation a).value.sight rules j = some seen) :
    (s.bind rules continuation).value.sight rules
      (s.bindPlace rules continuation n j) = some seen := by
  induction n generalizing s with
  | zero =>
      cases s with
      | nil => simp [sight, next] at element
      | cons b rest =>
          obtain rfl : b = a := by simpa [sight, next] using element
          rw [value_bind_cons, bindPlace]
          exact sight_leftPlace _ found
      | delay suspension => simp [sight, next] at element
  | succ n earlier =>
      cases s with
      | nil => simp [sight, next] at element
      | cons b rest =>
          rw [value_bind_cons, bindPlace]
          exact sight_rightPlace _ (earlier element)
      | delay suspension =>
          rw [bindPlace, sight_succ_of_next (next_bind_delay _ _)]
          exact earlier element

theorem sight_tickPlace (continuation : κ) {s : Stream ι κ α} {n : Nat}
    (forced : s.sight rules n = some .tick) :
    (s.bind rules continuation).value.sight rules
      (s.tickPlace rules continuation n) = some .tick := by
  induction n generalizing s with
  | zero =>
      cases s with
      | nil => simp [sight, next] at forced
      | cons a rest => simp [sight, next] at forced
      | delay suspension => exact sight_zero_of_next (next_bind_delay _ _)
  | succ n earlier =>
      cases s with
      | nil => simp [sight, next] at forced
      | cons a rest =>
          rw [value_bind_cons, tickPlace]
          exact sight_rightPlace _ (earlier forced)
      | delay suspension =>
          rw [tickPlace, sight_succ_of_next (next_bind_delay _ _)]
          exact earlier forced

/-- Binding puts nothing forward, neither the element nor what is seen of its
result. -/
theorem ticks_le_bindPlace {continuation : κ} {s : Stream ι κ α} {n j : Nat}
    {a : α} (element : s.sight rules n = some (.yield a)) :
    s.ticks rules n ≤ (s.bind rules continuation).value.ticks rules
        (s.bindPlace rules continuation n j) ∧
      (rules.apply continuation a).value.ticks rules j ≤
        (s.bind rules continuation).value.ticks rules
          (s.bindPlace rules continuation n j) := by
  induction n generalizing s with
  | zero =>
      cases s with
      | nil => simp [sight, next] at element
      | cons b rest =>
          obtain rfl : b = a := by simpa [sight, next] using element
          rw [value_bind_cons, bindPlace]
          exact ⟨Nat.zero_le _, (ticks_le_place rules j).1 _ _⟩
      | delay suspension => simp [sight, next] at element
  | succ n earlier =>
      cases s with
      | nil => simp [sight, next] at element
      | cons b rest =>
          rw [value_bind_cons, bindPlace, ticks_succ_of_next rfl,
            Sight.forced, Nat.zero_add]
          obtain ⟨ofStream, ofResult⟩ := earlier (s := rest) element
          have inside := (ticks_le_place rules
            (rest.bindPlace rules continuation n j)).2
            (rules.apply continuation b).value
            (rest.bind rules continuation).value
          exact ⟨Nat.le_trans ofStream inside, Nat.le_trans ofResult inside⟩
      | delay suspension =>
          rw [bindPlace, ticks_succ_of_next (next_bind_delay _ _),
            ticks_succ_of_next rfl]
          obtain ⟨ofStream, ofResult⟩ :=
            earlier (s := (suspension.force rules).value) element
          exact ⟨Nat.add_le_add_left ofStream _,
            Nat.le_trans ofResult (Nat.le_add_left _ _)⟩

/-- No two steps of the results of binding have one place. -/
theorem bindPlace_injective {continuation : κ} {s : Stream ι κ α}
    {n n' j j' : Nat} {a a' : α} {seen seen' : Sight α}
    (element : s.sight rules n = some (.yield a))
    (element' : s.sight rules n' = some (.yield a'))
    (found : (rules.apply continuation a).value.sight rules j = some seen)
    (found' : (rules.apply continuation a').value.sight rules j' = some seen')
    (same : s.bindPlace rules continuation n j =
      s.bindPlace rules continuation n' j') :
    n = n' ∧ j = j' := by
  induction n generalizing s n' with
  | zero =>
      cases s with
      | nil => simp [sight, next] at element
      | cons b rest =>
          obtain rfl : b = a := by simpa [sight, next] using element
          cases n' with
          | zero =>
              obtain rfl : b = a' := by simpa [sight, next] using element'
              exact ⟨rfl, leftPlace_inj found found' same⟩
          | succ n' =>
              have later := sight_bindPlace (s := rest) element' found'
              exact absurd same (leftPlace_ne_rightPlace found later)
      | delay suspension => simp [sight, next] at element
  | succ n earlier =>
      cases s with
      | nil => simp [sight, next] at element
      | cons b rest =>
          have later := sight_bindPlace (s := rest) element found
          cases n' with
          | zero =>
              obtain rfl : b = a' := by simpa [sight, next] using element'
              exact absurd same.symm (leftPlace_ne_rightPlace found' later)
          | succ n' =>
              have later' := sight_bindPlace (s := rest) element' found'
              obtain ⟨sameElement, sameStep⟩ := earlier (s := rest) element
                element' (rightPlace_inj later later' same)
              exact ⟨congrArg Nat.succ sameElement, sameStep⟩
      | delay suspension =>
          cases n' with
          | zero => simp [sight, next] at element'
          | succ n' =>
              rw [bindPlace, bindPlace, Nat.add_right_cancel_iff] at same
              obtain ⟨sameElement, sameStep⟩ :=
                earlier (s := (suspension.force rules).value) element element'
                  same
              exact ⟨congrArg Nat.succ sameElement, sameStep⟩

/-- No suspension of the stream has the place of a step of a result. -/
theorem tickPlace_ne_bindPlace {continuation : κ} {s : Stream ι κ α}
    {n n' j : Nat} {a : α} {seen : Sight α}
    (forced : s.sight rules n = some .tick)
    (element : s.sight rules n' = some (.yield a))
    (found : (rules.apply continuation a).value.sight rules j = some seen) :
    s.tickPlace rules continuation n ≠ s.bindPlace rules continuation n' j := by
  induction n generalizing s n' with
  | zero =>
      cases s with
      | nil => simp [sight, next] at forced
      | cons b rest => simp [sight, next] at forced
      | delay suspension =>
          cases n' with
          | zero => simp [sight, next] at element
          | succ n' => simp [tickPlace, bindPlace]
  | succ n earlier =>
      cases s with
      | nil => simp [sight, next] at forced
      | cons b rest =>
          have later := sight_tickPlace continuation (s := rest) forced
          cases n' with
          | zero =>
              obtain rfl : b = a := by simpa [sight, next] using element
              exact (leftPlace_ne_rightPlace found later).symm
          | succ n' =>
              have later' := sight_bindPlace (s := rest) element found
              intro same
              exact earlier (s := rest) forced element
                (rightPlace_inj later later' same)
      | delay suspension =>
          cases n' with
          | zero => simp [sight, next] at element
          | succ n' =>
              rw [tickPlace, bindPlace, ne_eq, Nat.add_right_cancel_iff]
              exact earlier (s := (suspension.force rules).value) forced
                element

/-- Whatever binding shows is a suspension of the stream, or it is shown by the
result for one of the elements of the stream, and stands in its place. -/
theorem exists_place_of_sight_bind {continuation : κ} {s : Stream ι κ α}
    {m : Nat} {seen : Sight α}
    (found : (s.bind rules continuation).value.sight rules m = some seen) :
    (∃ n, s.sight rules n = some .tick ∧ seen = .tick ∧
      s.tickPlace rules continuation n = m) ∨
    ∃ n a j, s.sight rules n = some (.yield a) ∧
      (rules.apply continuation a).value.sight rules j = some seen ∧
      s.bindPlace rules continuation n j = m := by
  induction m using Nat.strongRecOn generalizing s with
  | ind m before =>
      induction s using matureInduction with
      | onNil => simp [sight_of_next_none (s := Stream.nil) rfl, bind] at found
      | onDelay suspension =>
          cases m with
          | zero =>
              rw [sight_zero_of_next (next_bind_delay _ _),
                Option.some.injEq] at found
              exact Or.inl ⟨0, rfl, found.symm, rfl⟩
          | succ m =>
              rw [sight_succ_of_next (next_bind_delay _ _)] at found
              rcases before m (Nat.lt_succ_self m) found with
                ⟨n, forced, same, place⟩ | ⟨n, a, j, element, shown, place⟩
              · exact Or.inl ⟨n + 1, forced, same, by rw [tickPlace, place]⟩
              · exact Or.inr ⟨n + 1, a, j, element, shown,
                  by rw [bindPlace, place]⟩
      | onCons b rest onRest =>
          rw [value_bind_cons] at found
          rcases exists_place_of_sight_merge found with
            ⟨j, shown, place⟩ | ⟨k, shown, place⟩
          · exact Or.inr ⟨0, b, j, rfl, shown, place⟩
          · -- The result for the first element may be empty, and then nothing
            -- has moved: the position is smaller, or the rest of the mature
            -- part is.
            have later : k ≤ m := place ▸ le_rightPlace _ _ k
            have inRest :
                (∃ n, rest.sight rules n = some .tick ∧ seen = .tick ∧
                  rest.tickPlace rules continuation n = k) ∨
                ∃ n a j, rest.sight rules n = some (.yield a) ∧
                  (rules.apply continuation a).value.sight rules j =
                    some seen ∧
                  rest.bindPlace rules continuation n j = k := by
              rcases Nat.lt_or_eq_of_le later with earlier | rfl
              · exact before k earlier shown
              · exact onRest shown
            rcases inRest with
              ⟨n, forced, same, inner⟩ | ⟨n, a, j, element, shown, inner⟩
            · exact Or.inl ⟨n + 1, forced, same,
                by rw [tickPlace, inner, place]⟩
            · exact Or.inr ⟨n + 1, a, j, element, shown,
                by rw [bindPlace, inner, place]⟩

/-- Every element that binding shows is shown by the result for one of the
elements of the stream, and stands in its place. -/
theorem exists_bindPlace {continuation : κ} {s : Stream ι κ α} {m : Nat}
    {c : α}
    (found : (s.bind rules continuation).value.sight rules m =
      some (.yield c)) :
    ∃ n a j, s.sight rules n = some (.yield a) ∧
      (rules.apply continuation a).value.sight rules j = some (.yield c) ∧
      s.bindPlace rules continuation n j = m := by
  rcases exists_place_of_sight_bind found with ⟨_, _, forced, _⟩ | inResult
  · cases forced
  · exact inResult

/-! ### Fatal events

Merging and binding hide no fatal event of their operands either. -/

variable (rules) in
/-- Forcing the stream comes upon a fatal event after finitely many steps. -/
inductive Stops : Stream ι κ α → Prop where
  | here {suspension : Suspension ι κ α}
      (fatal : (suspension.force rules).events.any rules.isFatal = true) :
      Stops (.delay suspension)
  | later {s rest : Stream ι κ α} {seen : Sight α}
      (step : s.next rules = some (seen, rest)) (stops : Stops rest) : Stops s

theorem Stops.merge {s : Stream ι κ α} (stops : s.Stops rules)
    (other : Stream ι κ α) :
    (s.merge other).Stops rules ∧ (other.merge s).Stops rules := by
  -- The right side has its turn at once or after one step of the left side.
  have onRight : ∀ {s : Stream ι κ α}, s.Stops rules →
      (∀ other : Stream ι κ α, (s.merge other).Stops rules) →
      ∀ other : Stream ι κ α, (other.merge s).Stops rules := by
    intro s stops onLeft other
    cases step : other.next rules with
    | none =>
        rw [next_merge_of_none step]
        exact stops
    | some pair => exact .later (next_merge_of_next step) (onLeft pair.2)
  have onLeft : ∀ other : Stream ι κ α, (s.merge other).Stops rules := by
    induction stops with
    | here fatal =>
        intro other
        apply Stops.here
        rwa [Suspension.force_merge, Traced.events_map]
    | later step stops onRest =>
        intro other
        exact .later (next_merge_of_next step) (onRight stops onRest other)
  exact ⟨onLeft other, onRight stops onLeft other⟩

theorem Stops.bind {s : Stream ι κ α} (stops : s.Stops rules)
    (continuation : κ) : (s.bind rules continuation).value.Stops rules := by
  induction stops with
  | here fatal =>
      apply Stops.here
      rw [Suspension.force_bind, Traced.events_bind, List.any_append, fatal]
      rfl
  | @later s rest seen step _ onRest =>
      cases s with
      | nil => simp [next] at step
      | cons a rest =>
          simp only [next, Option.some.injEq, Prod.mk.injEq] at step
          rcases step with ⟨_, rfl⟩
          rw [value_bind_cons]
          exact (onRest.merge _).2
      | delay suspension =>
          simp only [next, Option.some.injEq, Prod.mk.injEq] at step
          rcases step with ⟨_, rfl⟩
          exact .later (next_bind_delay _ _) onRest

end Stream

/-- A fatal event is reported at once, or when the stream is forced. -/
def Traced.Stops {ε ι κ α : Type} (rules : Rules ε ι κ α)
    (traced : Traced ε (Stream ι κ α)) : Prop :=
  traced.events.any rules.isFatal = true ∨ traced.value.Stops rules

namespace Stream

variable {ε ι κ α : Type} {rules : Rules ε ι κ α}

theorem events_bind (continuation : κ) (s : Stream ι κ α) :
    (s.bind rules continuation).events =
      s.mature.flatMap fun a => (rules.apply continuation a).events :=
  events_bindWith (rules.apply continuation) continuation s

/-- Binding comes upon the fatal events of the results of all elements. -/
theorem stops_bind_of_sight {continuation : κ} {s : Stream ι κ α} {n : Nat}
    {a : α} (element : s.sight rules n = some (.yield a))
    (stops : (rules.apply continuation a).Stops rules) :
    (s.bind rules continuation).Stops rules := by
  induction n generalizing s with
  | zero =>
      cases s with
      | nil => simp [sight, next] at element
      | cons b rest =>
          obtain rfl : b = a := by simpa [sight, next] using element
          rcases stops with atOnce | later
          · left
            rw [events_bind, mature_cons, List.flatMap_cons, List.any_append,
              atOnce]
            rfl
          · right
            rw [value_bind_cons]
            exact (later.merge _).1
      | delay suspension => simp [sight, next] at element
  | succ n earlier =>
      cases s with
      | nil => simp [sight, next] at element
      | cons b rest =>
          rcases earlier (s := rest) element with atOnce | later
          · left
            rw [events_bind] at atOnce ⊢
            rw [mature_cons, List.flatMap_cons, List.any_append, atOnce,
              Bool.or_true]
          · right
            rw [value_bind_cons]
            exact (later.merge _).2
      | delay suspension =>
          right
          rcases earlier (s := (suspension.force rules).value) element with
            atOnce | later
          · apply Stops.here
            rw [Suspension.force_bind, Traced.events_bind, List.any_append,
              atOnce, Bool.or_true]
          · exact .later (next_bind_delay _ _) later

/-! A search that stops somewhere may have shown much before.  What matters
for one position is what has been reported until it was reached. -/

variable (rules) in
/-- The events that are reported before a position is reached. -/
def reports : Stream ι κ α → Nat → List ε
  | _, 0 => []
  | .nil, _ + 1 => []
  | .cons _ rest, n + 1 => rest.reports n
  | .delay suspension, n + 1 =>
    (suspension.force rules).events ++
      (suspension.force rules).value.reports n

end Stream

/-- No fatal event is reported before a position is reached. -/
def Traced.Calm {ε ι κ α : Type} (rules : Rules ε ι κ α)
    (traced : Traced ε (Stream ι κ α)) (n : Nat) : Prop :=
  (traced.events ++ traced.value.reports rules n).any rules.isFatal = false

/-- A finite stream is calm if what was reported on the way to it is. -/
theorem Traced.calm_of_finite {ε ι κ α : Type} {rules : Rules ε ι κ α}
    {traced : Traced ε (Stream ι κ α)}
    (quiet : traced.events.any rules.isFatal = false)
    (finite : traced.value.ending.isNone = true) (n : Nat) :
    traced.Calm rules n := by
  have silent : ∀ s : Stream ι κ α, s.ending.isNone = true →
      ∀ n, s.reports rules n = [] := by
    intro s
    induction s using Stream.matureInduction with
    | onNil => intro _ n; cases n <;> rfl
    | onCons a rest onRest =>
        intro finite n
        cases n with
        | zero => rfl
        | succ n => exact onRest finite n
    | onDelay suspension => intro finite; cases finite
  rw [Traced.Calm, silent _ finite, List.append_nil]
  exact quiet

/-- A stream that ends is calm if it is until its end. -/
theorem Traced.calm_of_ended {ε ι κ α : Type} {rules : Rules ε ι κ α}
    {traced : Traced ε (Stream ι κ α)} {n : Nat} (calm : traced.Calm rules n)
    (ended : traced.value.sight rules n = none) (m : Nat) :
    traced.Calm rules m := by
  have quiet : ∀ (n : Nat) (s : Stream ι κ α), s.sight rules n = none →
      (s.reports rules n).any rules.isFatal = false →
        ∀ m, (s.reports rules m).any rules.isFatal = false := by
    intro n
    induction n with
    | zero =>
        intro s ended _ m
        cases s with
        | nil => cases m <;> rfl
        | cons a rest => cases ended
        | delay suspension => cases ended
    | succ n before =>
        intro s ended calm m
        cases m with
        | zero => rfl
        | succ m =>
            cases s with
            | nil => rfl
            | cons a rest => exact before rest ended calm m
            | delay suspension =>
                rw [Stream.reports, List.any_append, Bool.or_eq_false_iff]
                  at calm ⊢
                exact ⟨calm.1, before _ ended calm.2 m⟩
  rw [Traced.Calm, List.any_append, Bool.or_eq_false_iff] at calm ⊢
  exact ⟨calm.1, quiet n _ ended calm.2 m⟩

end Relational
