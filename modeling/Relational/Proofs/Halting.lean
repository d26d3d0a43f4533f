/-
Module: Relational.Proofs.Halting
Purpose: After how many steps of a stream a collection of its elements comes to
  its end, and what it has collected by then.
Main exports: Demand.Within, Stream.shown, Stream.remaining,
  Stream.HaltsAfter, Stream.harvestAfter, Stream.TakeReturns,
  Stream.takeReturns_iff, Stream.takeReturns_of_within
-/
import Relational.Proofs.Unfolding
import Relational.Stream.Consume

namespace Relational

/-!
Whoever takes elements out of a stream walks along its unfolding and differs
from others in where the walk ends only.  So it is enough to say after how many
steps a collection comes to its end: what has been taken, forced and reported by
then can be read off the unfolding.  Two collections that end after the same
number of steps agree on all of it, and one that ends earlier has taken, forced
and reported a first part of it.

A collection may also fail to return, because the stream is suspended for ever
or because of a fatal event.  Then there is no such number of steps.
-/

/-- Whoever has enough for the larger demand has enough for the smaller one. -/
def Demand.Within (less more : Demand) : Prop :=
  ∀ count, more.isMet count = true → less.isMet count = true

/-- How a collection that has come to its end has ended. -/
def Demand.endingAt (demand : Demand) (count : Nat) : Ending :=
  if demand.isMet count then .satisfied else .exhausted

theorem Demand.upTo_within {m n : Nat} (less : m ≤ n) :
    (Demand.upTo m).Within (.upTo n) := by
  intro count met
  simp only [isMet, decide_eq_true_eq] at met ⊢
  exact Nat.le_trans less met

theorem Demand.within_all (demand : Demand) : demand.Within .all :=
  fun _ met => nomatch met

namespace Stream

variable {ε ι κ α : Type} (rules : Rules ε ι κ α)

/-! ### What has been seen when a position is reached -/

/-- The elements that are shown before a position is reached. -/
def shown : Stream ι κ α → Nat → List α
  | _, 0 => []
  | .nil, _ + 1 => []
  | .cons a rest, n + 1 => a :: rest.shown n
  | .delay suspension, n + 1 => (suspension.force rules).value.shown n

/-- The stream that is left when a position is reached. -/
def remaining : Stream ι κ α → Nat → Stream ι κ α
  | s, 0 => s
  | .nil, _ + 1 => .nil
  | .cons _ rest, n + 1 => rest.remaining n
  | .delay suspension, n + 1 => (suspension.force rules).value.remaining n

variable {rules}

@[simp] theorem shown_zero (s : Stream ι κ α) : s.shown rules 0 = [] := by
  cases s <;> rfl

@[simp] theorem shown_nil (n : Nat) :
    (nil : Stream ι κ α).shown rules n = [] := by
  cases n <;> rfl

@[simp] theorem remaining_zero (s : Stream ι κ α) :
    s.remaining rules 0 = s := by
  cases s <;> rfl

@[simp] theorem remaining_nil (n : Nat) :
    (nil : Stream ι κ α).remaining rules n = .nil := by
  cases n <;> rfl

theorem shown_add (s : Stream ι κ α) (m n : Nat) :
    s.shown rules (m + n) =
      s.shown rules m ++ (s.remaining rules m).shown rules n := by
  induction m generalizing s with
  | zero => simp
  | succ m onLess =>
      rw [Nat.succ_add]
      cases s with
      | nil => simp
      | cons a rest => exact congrArg (a :: ·) (onLess rest)
      | delay suspension => exact onLess (suspension.force rules).value

theorem add_length_shown_cons (count : Nat) (a : α) (rest : Stream ι κ α)
    (n : Nat) :
    count + ((cons a rest).shown rules (n + 1)).length =
      count + 1 + (rest.shown rules n).length := by
  rw [shown, List.length_cons, Nat.add_assoc, Nat.add_comm 1]

theorem reports_add (s : Stream ι κ α) (m n : Nat) :
    s.reports rules (m + n) =
      s.reports rules m ++ (s.remaining rules m).reports rules n := by
  induction m generalizing s with
  | zero => cases s <;> simp [reports, remaining]
  | succ m onLess =>
      rw [Nat.succ_add]
      cases s with
      | nil => cases n <;> rfl
      | cons a rest => exact onLess rest
      | delay suspension =>
          rw [reports, onLess, ← List.append_assoc]
          rfl

theorem ticks_add (s : Stream ι κ α) (m n : Nat) :
    s.ticks rules (m + n) =
      s.ticks rules m + (s.remaining rules m).ticks rules n := by
  induction m generalizing s with
  | zero => simp [ticks]
  | succ m onLess =>
      rw [Nat.succ_add]
      cases s with
      | nil => cases n <;> rfl
      | cons a rest =>
          simp [ticks, next, onLess rest, Nat.add_assoc, remaining]
      | delay suspension =>
          simp [ticks, next, onLess (suspension.force rules).value,
            Nat.add_assoc, remaining]

theorem remaining_add (s : Stream ι κ α) (m n : Nat) :
    s.remaining rules (m + n) =
      (s.remaining rules m).remaining rules n := by
  induction m generalizing s with
  | zero => simp
  | succ m onLess =>
      rw [Nat.succ_add]
      cases s with
      | nil => simp
      | cons a rest => exact onLess rest
      | delay suspension => exact onLess (suspension.force rules).value

theorem sight_remaining (s : Stream ι κ α) (m n : Nat) :
    (s.remaining rules m).sight rules n = s.sight rules (m + n) := by
  induction m generalizing s with
  | zero => simp
  | succ m onLess =>
      rw [Nat.succ_add]
      cases s with
      | nil => rw [remaining_nil, sight_of_next_none rfl]; rfl
      | cons a rest => exact onLess rest
      | delay suspension => exact onLess (suspension.force rules).value

/-! ### After how many steps a collection comes to its end -/

variable (rules) in
/-- A collection that already has `count` elements comes to its end after a
number of steps: with the last element that is wanted or with the end of the
stream, and without a fatal event. -/
inductive HaltsAfter (demand : Demand) : Nat → Stream ι κ α → Nat → Prop where
  | satisfied {count : Nat} {s : Stream ι κ α}
      (met : demand.isMet count = true) : HaltsAfter demand count s 0
  | exhausted {count : Nat} (unmet : demand.isMet count = false) :
      HaltsAfter demand count .nil 0
  | yield {count steps : Nat} {a : α} {rest : Stream ι κ α}
      (unmet : demand.isMet count = false)
      (later : HaltsAfter demand (count + 1) rest steps) :
      HaltsAfter demand count (.cons a rest) (steps + 1)
  | tick {count steps : Nat} {suspension : Suspension ι κ α}
      (unmet : demand.isMet count = false)
      (calm : (suspension.force rules).events.any rules.isFatal = false)
      (later : HaltsAfter demand count (suspension.force rules).value steps) :
      HaltsAfter demand count (.delay suspension) (steps + 1)

theorem haltsAfter_nil_iff {demand : Demand} {count steps : Nat} :
    (nil : Stream ι κ α).HaltsAfter rules demand count steps ↔ steps = 0 := by
  constructor
  · intro halts
    cases halts <;> rfl
  · rintro rfl
    cases met : demand.isMet count with
    | true => exact .satisfied met
    | false => exact .exhausted met

namespace HaltsAfter

variable {demand less more : Demand} {count steps : Nat} {s : Stream ι κ α}

theorem unique {steps' : Nat} (halts : s.HaltsAfter rules demand count steps)
    (halts' : s.HaltsAfter rules demand count steps') : steps = steps' := by
  induction halts generalizing steps' with
  | satisfied met => cases halts' <;> simp_all
  | exhausted unmet => cases halts' <;> rfl
  | yield unmet _ onLater =>
      cases halts' with
      | satisfied met => simp [met] at unmet
      | yield _ later' => rw [onLater later']
  | tick unmet _ _ onLater =>
      cases halts' with
      | satisfied met => simp [met] at unmet
      | tick _ _ later' => rw [onLater later']

/-- Only the demand for the elements that are shown matters. -/
theorem congr {demand' : Demand} {count' : Nat}
    (halts : s.HaltsAfter rules demand count steps)
    (alike : ∀ k ≤ (s.shown rules steps).length,
      demand'.isMet (count' + k) = demand.isMet (count + k)) :
    s.HaltsAfter rules demand' count' steps := by
  induction halts generalizing count' with
  | satisfied met => exact .satisfied ((alike 0 (Nat.zero_le _)).trans met)
  | exhausted unmet => exact .exhausted ((alike 0 (Nat.zero_le _)).trans unmet)
  | yield unmet _ onLater =>
      refine .yield ((alike 0 (Nat.zero_le _)).trans unmet) (onLater ?_)
      intro k within
      have moved := alike (k + 1) (Nat.succ_le_succ within)
      rwa [Nat.add_comm k, ← Nat.add_assoc, ← Nat.add_assoc] at moved
  | tick unmet calm _ onLater =>
      exact .tick ((alike 0 (Nat.zero_le _)).trans unmet) calm (onLater alike)

/-- A smaller demand is met on the way to a larger one. -/
theorem split (within : less.Within more)
    (halts : s.HaltsAfter rules more count steps) :
    ∃ first later, steps = first + later ∧
      s.HaltsAfter rules less count first ∧
      (s.remaining rules first).HaltsAfter rules more
        (count + (s.shown rules first).length) later := by
  induction halts with
  | @satisfied count s met =>
      exact ⟨0, 0, rfl, .satisfied (within count met), by
        simpa using satisfied met⟩
  | @exhausted count unmet =>
      exact ⟨0, 0, rfl, haltsAfter_nil_iff.2 rfl, haltsAfter_nil_iff.2 rfl⟩
  | @yield count steps a rest unmet onwards onLater =>
      cases met : less.isMet count with
      | true =>
          exact ⟨0, steps + 1, (Nat.zero_add _).symm, .satisfied met,
            .yield unmet onwards⟩
      | false =>
          obtain ⟨first, later, rfl, halts, halts'⟩ := onLater
          refine ⟨first + 1, later, Nat.add_right_comm .., .yield met halts, ?_⟩
          rwa [add_length_shown_cons]
  | @tick count steps suspension unmet calm onwards onLater =>
      cases met : less.isMet count with
      | true =>
          exact ⟨0, steps + 1, (Nat.zero_add _).symm, .satisfied met,
            .tick unmet calm onwards⟩
      | false =>
          obtain ⟨first, later, rfl, halts, halts'⟩ := onLater
          exact ⟨first + 1, later, Nat.add_right_comm .., .tick met calm halts,
            halts'⟩

/-- One demand after the other is met in the steps for both. -/
theorem append (within : less.Within more) {first later : Nat}
    (halts : s.HaltsAfter rules less count first)
    (halts' : (s.remaining rules first).HaltsAfter rules more
      (count + (s.shown rules first).length) later) :
    s.HaltsAfter rules more count (first + later) := by
  -- A demand that is not met yet leaves the larger one unmet.
  have unmetMore : ∀ {count : Nat}, less.isMet count = false →
      more.isMet count = false := by
    intro count unmet
    cases met : more.isMet count with
    | true => exact absurd (within count met) (by simp [unmet])
    | false => rfl
  induction halts with
  | satisfied met => simpa using halts'
  | exhausted unmet => simpa using halts'
  | yield unmet _ onLater =>
      rw [Nat.add_right_comm]
      rw [add_length_shown_cons] at halts'
      exact .yield (unmetMore unmet) (onLater halts')
  | tick unmet calm _ onLater =>
      rw [Nat.add_right_comm]
      exact .tick (unmetMore unmet) calm (onLater halts')

/-- A collection ends with the end of the stream while it wants more, or in
front of all steps, or right behind the element that meets the demand. -/
theorem outcome (halts : s.HaltsAfter rules demand count steps) :
    demand.isMet (count + (s.shown rules steps).length) = false ∧
        s.remaining rules steps = .nil ∨
      demand.isMet (count + (s.shown rules steps).length) = true ∧
        (steps = 0 ∨ ∃ before a, steps = before + 1 ∧
          s.sight rules before = some (.yield a) ∧
          demand.isMet (count + (s.shown rules before).length) = false) := by
  induction halts with
  | satisfied met => exact Or.inr ⟨by simpa using met, Or.inl rfl⟩
  | exhausted unmet => exact Or.inl ⟨by simpa using unmet, rfl⟩
  | @yield count steps a rest unmet _ onLater =>
      rw [add_length_shown_cons]
      rcases onLater with ended | ⟨met, rfl | ⟨before, b, rfl, seen, short⟩⟩
      · exact Or.inl ended
      · exact Or.inr ⟨met, Or.inr ⟨0, a, rfl, rfl, by simpa using unmet⟩⟩
      · rw [← add_length_shown_cons count a] at short
        exact Or.inr ⟨met, Or.inr ⟨before + 1, b, rfl, seen, short⟩⟩
  | @tick count steps suspension unmet _ _ onLater =>
      rcases onLater with ended | ⟨met, rfl | ⟨before, b, rfl, seen, short⟩⟩
      · exact Or.inl ended
      · simp [unmet] at met
      · exact Or.inr ⟨met, Or.inr ⟨before + 1, b, rfl, seen, short⟩⟩

theorem steps_eq (halts : s.HaltsAfter rules demand count steps) :
    steps = (s.shown rules steps).length + s.ticks rules steps := by
  induction halts with
  | satisfied met => simp [ticks]
  | exhausted unmet => simp [ticks]
  | yield unmet _ onLater =>
      simp only [shown, List.length_cons, ticks, next, Sight.forced]
      omega
  | tick unmet calm _ onLater =>
      simp only [shown, ticks, next, Sight.forced]
      omega

theorem calm (halts : s.HaltsAfter rules demand count steps) :
    (s.reports rules steps).any rules.isFatal = false := by
  induction halts with
  | satisfied met => rfl
  | exhausted unmet => rfl
  | yield unmet _ onLater => exact onLater
  | tick unmet calm _ onLater =>
      rw [reports, List.any_append, calm, onLater]
      rfl

/-- A collection comes to its end as soon as it can. -/
theorem exists_of_reached {reached : Nat}
    (calm : (s.reports rules reached).any rules.isFatal = false)
    (enough : demand.isMet (count + (s.shown rules reached).length) = true ∨
      s.remaining rules reached = .nil) :
    ∃ steps, s.HaltsAfter rules demand count steps := by
  induction reached generalizing s count with
  | zero =>
      rcases enough with met | ended
      · exact ⟨0, .satisfied (by simpa using met)⟩
      · rw [remaining_zero] at ended
        exact ⟨0, ended ▸ haltsAfter_nil_iff.2 rfl⟩
  | succ reached onLess =>
      cases met : demand.isMet count with
      | true => exact ⟨0, .satisfied met⟩
      | false =>
          cases s with
          | nil => exact ⟨0, .exhausted met⟩
          | cons a rest =>
              rw [add_length_shown_cons] at enough
              obtain ⟨steps, halts⟩ := onLess (s := rest) calm enough
              exact ⟨steps + 1, .yield met halts⟩
          | delay suspension =>
              rw [reports, List.any_append, Bool.or_eq_false_iff] at calm
              obtain ⟨steps, halts⟩ := onLess calm.2 enough
              exact ⟨steps + 1, .tick met calm.1 halts⟩

end HaltsAfter

/-! ### Collections -/

variable (rules) in
/-- The progress of a collection after some steps. -/
def progressAfter (progress : Harvest.Progress ε α) (s : Stream ι κ α)
    (steps : Nat) : Harvest.Progress ε α where
  reversed := (s.shown rules steps).reverse ++ progress.reversed
  count := progress.count + (s.shown rules steps).length
  forced := progress.forced + s.ticks rules steps
  trace := (s.reports rules steps).reverse ++ progress.trace

theorem progressAfter_zero (progress : Harvest.Progress ε α)
    (s : Stream ι κ α) : progressAfter rules progress s 0 = progress := by
  simp [progressAfter, ticks, reports]

theorem progressAfter_cons (progress : Harvest.Progress ε α) (a : α)
    (rest : Stream ι κ α) (steps : Nat) :
    progressAfter rules progress (cons a rest) (steps + 1) =
      progressAfter rules (progress.add a) rest steps := by
  simp [progressAfter, Harvest.Progress.add, shown, ticks, next, Sight.forced,
    reports, Nat.add_assoc, Nat.add_comm 1]

theorem progressAfter_delay (progress : Harvest.Progress ε α)
    (suspension : Suspension ι κ α) (steps : Nat) :
    progressAfter rules progress (delay suspension) (steps + 1) =
      progressAfter rules (progress.force (suspension.force rules).events)
        (suspension.force rules).value steps := by
  simp [progressAfter, Harvest.Progress.force, shown, ticks, next,
    Sight.forced, reports, Nat.add_assoc]

variable (rules) in
/-- What has been collected after some steps, if the collection ends there. -/
def harvestAfter (demand : Demand) (s : Stream ι κ α) (steps : Nat) :
    Traced ε (Harvest α) where
  value :=
    { items := s.shown rules steps
      forced := s.ticks rules steps
      ending := demand.endingAt (s.shown rules steps).length }
  events := s.reports rules steps

/-- Whatever fuel is left over, a collection that comes to its end has made
just the steps to it. -/
theorem collectFrom_of_haltsAfter {demand : Demand} {steps fuel : Nat}
    {s : Stream ι κ α} {progress : Harvest.Progress ε α}
    (halts : s.HaltsAfter rules demand progress.count steps)
    (enough : steps ≤ fuel) :
    s.collectFrom rules demand (fuel + 1) progress =
      (progressAfter rules progress s steps).close
        (demand.endingAt (progressAfter rules progress s steps).count) := by
  generalize counted : progress.count = count at halts
  induction halts generalizing fuel progress with
  | satisfied met =>
      subst counted
      rw [collectFrom_of_isMet met, progressAfter_zero, Demand.endingAt,
        if_pos met]
  | exhausted unmet =>
      subst counted
      rw [progressAfter_zero, Demand.endingAt, collectFrom]
      simp [unmet]
  | @yield count steps a rest unmet _ onLater =>
      subst counted
      obtain ⟨spare, rfl⟩ := Nat.exists_eq_add_of_le' enough
      rw [collectFrom_cons (by simp [unmet]), progressAfter_cons]
      exact onLater (Nat.le_add_left _ spare) rfl
  | @tick count steps suspension unmet calm _ onLater =>
      subst counted
      obtain ⟨spare, rfl⟩ := Nat.exists_eq_add_of_le' enough
      rw [collectFrom, if_neg (by simp [unmet]), if_neg (by simp [calm]),
        progressAfter_delay]
      exact onLater (Nat.le_add_left _ spare) rfl

theorem exists_haltsAfter_of_collectFrom {demand : Demand} {fuel : Nat}
    {s : Stream ι κ α} {progress : Harvest.Progress ε α}
    (running : (s.collectFrom rules demand fuel progress).value.ending ≠
      .stopped)
    (ended : (s.collectFrom rules demand fuel progress).value.ending ≠
      .unfinished) :
    ∃ steps < fuel, s.HaltsAfter rules demand progress.count steps := by
  induction fuel generalizing s progress with
  | zero => exact absurd rfl ended
  | succ fuel onLess =>
      cases met : demand.isMet progress.count with
      | true => exact ⟨0, Nat.succ_pos _, .satisfied met⟩
      | false =>
          have unmet : ¬ demand.isMet progress.count = true := by simp [met]
          cases s with
          | nil => exact ⟨0, Nat.succ_pos _, .exhausted met⟩
          | cons a rest =>
              rw [collectFrom_cons unmet] at running ended
              obtain ⟨steps, within, halts⟩ := onLess running ended
              exact ⟨steps + 1, Nat.succ_lt_succ within, .yield met halts⟩
          | delay suspension =>
              obtain ⟨calm, onward⟩ := collectFrom_delay unmet running
              rw [onward] at running ended
              obtain ⟨steps, within, halts⟩ := onLess running ended
              exact ⟨steps + 1, Nat.succ_lt_succ within, .tick met calm halts⟩

variable (rules) in
/-- Collecting elements from a stream returns, with the given outcome. -/
def TakeReturns (demand : Demand) (s : Stream ι κ α)
    (outcome : Traced ε (Harvest α)) : Prop :=
  outcome.value.ending ≠ .stopped ∧ outcome.value.ending ≠ .unfinished ∧
    ∃ fuel, s.collect rules fuel demand = outcome

/-- A collection returns what has been shown, forced and reported after the
steps to its end. -/
theorem takeReturns_iff {demand : Demand} {s : Stream ι κ α}
    {outcome : Traced ε (Harvest α)} :
    s.TakeReturns rules demand outcome ↔
      ∃ steps, s.HaltsAfter rules demand 0 steps ∧
        outcome = s.harvestAfter rules demand steps := by
  have closed : ∀ steps, (progressAfter rules .start s steps).close
      (demand.endingAt (progressAfter rules .start s steps).count) =
        s.harvestAfter rules demand steps := by
    intro steps
    simp [progressAfter, Harvest.Progress.start, Harvest.Progress.close,
      harvestAfter]
  constructor
  · rintro ⟨running, ended, fuel, rfl⟩
    obtain ⟨steps, within, halts⟩ :=
      exists_haltsAfter_of_collectFrom running ended
    obtain ⟨spare, rfl⟩ := Nat.exists_eq_add_of_lt within
    exact ⟨steps, halts, (collectFrom_of_haltsAfter halts
      (Nat.le_add_right steps spare)).trans (closed steps)⟩
  · rintro ⟨steps, halts, rfl⟩
    refine ⟨?_, ?_, steps + 1, (collectFrom_of_haltsAfter halts
      (Nat.le_refl steps)).trans (closed steps)⟩
    · simp only [harvestAfter, Demand.endingAt]
      split <;> simp
    · simp only [harvestAfter, Demand.endingAt]
      split <;> simp

/-- A collection of more elements takes, forces and reports what the collection
of less does, in front of what it does itself; and the collection of less
returns if that of more does. -/
theorem takeReturns_of_within {less more : Demand} (within : less.Within more)
    {s : Stream ι κ α} {outcome : Traced ε (Harvest α)}
    (returns : s.TakeReturns rules more outcome) :
    ∃ earlier, s.TakeReturns rules less earlier ∧
      earlier.value.items <+: outcome.value.items ∧
      earlier.value.forced ≤ outcome.value.forced ∧
      earlier.events <+: outcome.events := by
  obtain ⟨steps, halts, rfl⟩ := takeReturns_iff.1 returns
  obtain ⟨first, later, rfl, halts, _⟩ := halts.split within
  refine ⟨_, takeReturns_iff.2 ⟨first, halts, rfl⟩, ?_, ?_, ?_⟩
  · exact ⟨_, (shown_add s first later).symm⟩
  · exact Nat.le.intro (ticks_add s first later).symm
  · exact ⟨_, (reports_add s first later).symm⟩

theorem TakeReturns.unique {demand : Demand} {s : Stream ι κ α}
    {outcome outcome' : Traced ε (Harvest α)}
    (returns : s.TakeReturns rules demand outcome)
    (returns' : s.TakeReturns rules demand outcome') : outcome = outcome' := by
  obtain ⟨steps, halts, rfl⟩ := takeReturns_iff.1 returns
  obtain ⟨steps', halts', rfl⟩ := takeReturns_iff.1 returns'
  rw [halts.unique halts']

end Stream

end Relational
