/-
Module: Relational.Proofs.Consumption
Purpose: All ways of taking elements out of a stream make the same steps, and
  none of them makes a step that is not needed.
Main exports: Stream.yields, Stream.elementPlace, Stream.IsTake,
  Stream.PullReturns, Stream.DrawReturns, Stream.InTurn,
  Stream.consumers_agree
-/
import Mathlib.Data.ENat.Lattice
import Mathlib.Data.Nat.Nth
import Mathlib.Data.Set.Card
import Relational.Proofs.Fairness
import Relational.Proofs.Halting
import Relational.Series

namespace Relational

/-!
A collection, an iterator and whoever forces a stream by hand and takes its
first element off all make the steps of the unfolding, one after the other, and
stop as soon as they can.  Where that is follows from the places of the elements
alone, so the elements that are taken and the suspensions that are forced can be
counted along the unfolding, without a look at what takes them.
-/

namespace Stream

variable {ε ι κ α : Type} (rules : Rules ε ι κ α)

/-! ### Elements and suspensions -/

/-- The positions at which a stream shows an element. -/
def yields (s : Stream ι κ α) : Set Nat :=
  {n | ∃ a, s.sight rules n = some (.yield a)}

/-- The position of the element with a number; the first element has number
zero. -/
noncomputable def elementPlace (s : Stream ι κ α) (k : Nat) : Nat :=
  Nat.nth (· ∈ s.yields rules) k

variable {rules}

open scoped Classical in
theorem length_shown (s : Stream ι κ α) (n : Nat) :
    (s.shown rules n).length = Nat.count (· ∈ s.yields rules) n := by
  induction n generalizing s with
  | zero => simp
  | succ n onLess =>
      rw [Nat.count_succ']
      cases s with
      | nil => simp [yields, sight_of_next_none (s := Stream.nil) rfl]
      | cons a rest =>
          rw [if_pos ⟨a, rfl⟩]
          exact congrArg (· + 1) (onLess rest)
      | delay suspension =>
          rw [if_neg (by simp [yields, sight, next])]
          exact onLess (suspension.force rules).value

open scoped Classical in
theorem ticks_eq_count (s : Stream ι κ α) (n : Nat) :
    s.ticks rules n = Nat.count (· ∈ s.pauses rules) n := by
  induction n generalizing s with
  | zero => simp [ticks]
  | succ n onLess =>
      rw [Nat.count_succ']
      cases s with
      | nil =>
          simp [ticks, next, pauses, sight_of_next_none (s := Stream.nil) rfl]
      | cons a rest =>
          rw [if_neg (by simp [pauses, sight, next]),
            ticks_succ_of_next (s := cons a rest) rfl, Sight.forced,
            Nat.zero_add]
          exact onLess rest
      | delay suspension =>
          rw [if_pos (by simp [pauses, sight, next]),
            ticks_succ_of_next (s := delay suspension) rfl, Sight.forced,
            Nat.add_comm]
          exact congrArg (· + 1) (onLess (suspension.force rules).value)

open scoped Classical in
theorem encard_inter_Iio (places : Set Nat) (n : Nat) :
    (places ∩ Set.Iio n).encard = Nat.count (· ∈ places) n := by
  have listed : places ∩ Set.Iio n = {k ∈ Finset.range n | k ∈ places} := by
    ext k
    simp [and_comm]
  rw [listed, Set.encard_coe_eq_coe_finsetCard, Nat.count_eq_card_filter_range]

theorem encard_yields_before (s : Stream ι κ α) (n : Nat) :
    (s.yields rules ∩ Set.Iio n).encard = (s.shown rules n).length := by
  classical rw [encard_inter_Iio, length_shown]

theorem encard_pauses_before (s : Stream ι κ α) (n : Nat) :
    (s.pauses rules ∩ Set.Iio n).encard = s.ticks rules n := by
  classical rw [encard_inter_Iio, ticks_eq_count]

theorem elementPlace_of_sight {s : Stream ι κ α} {n : Nat} {a : α}
    (found : s.sight rules n = some (.yield a)) :
    s.elementPlace rules (s.shown rules n).length = n := by
  classical
  rw [length_shown]
  exact Nat.nth_count (p := (· ∈ s.yields rules)) ⟨a, found⟩

/-- The elements that have been shown are the first ones, in order. -/
theorem sight_elementPlace_of_shown {s : Stream ι κ α} {n k : Nat} {a : α}
    (found : (s.shown rules n)[k]? = some a) :
    s.sight rules (s.elementPlace rules k) = some (.yield a) := by
  obtain ⟨m, seen, count⟩ : ∃ m, s.sight rules m = some (.yield a) ∧
      (s.shown rules m).length = k := by
    induction n generalizing s k with
    | zero => simp at found
    | succ n onLess =>
        cases s with
        | nil => simp at found
        | cons b rest =>
            cases k with
            | zero =>
                obtain rfl : b = a := by simpa [shown] using found
                exact ⟨0, rfl, rfl⟩
            | succ k =>
                obtain ⟨m, seen, count⟩ := onLess (s := rest) found
                exact ⟨m + 1, seen, congrArg (· + 1) count⟩
        | delay suspension =>
            obtain ⟨m, seen, count⟩ :=
              onLess (s := (suspension.force rules).value) found
            exact ⟨m + 1, seen, count⟩
  rw [← count, elementPlace_of_sight seen, seen]

/-- Behind the end of a stream there is nothing to see. -/
theorem extent_subset_of_ended {s : Stream ι κ α} {n : Nat}
    (ended : s.remaining rules n = .nil) : s.extent rules ⊆ Set.Iio n := by
  rintro m ⟨seen, found⟩
  by_contra later
  obtain ⟨k, rfl⟩ := Nat.exists_eq_add_of_le (Nat.le_of_not_lt later)
  rw [← sight_remaining, ended, sight_of_next_none rfl] at found
  cases found

theorem yields_subset_extent (s : Stream ι κ α) :
    s.yields rules ⊆ s.extent rules :=
  fun _ ⟨a, found⟩ => ⟨.yield a, found⟩

theorem pauses_subset_extent (s : Stream ι κ α) :
    s.pauses rules ⊆ s.extent rules :=
  fun _ found => ⟨.tick, found⟩

theorem encard_yields_of_ended {s : Stream ι κ α} {n : Nat}
    (ended : s.remaining rules n = .nil) :
    (s.yields rules).encard = (s.shown rules n).length := by
  rw [← encard_yields_before, Set.inter_eq_left.2
    ((yields_subset_extent s).trans (extent_subset_of_ended ended))]

theorem encard_pauses_of_ended {s : Stream ι κ α} {n : Nat}
    (ended : s.remaining rules n = .nil) :
    (s.pauses rules).encard = s.ticks rules n := by
  rw [← encard_pauses_before, Set.inter_eq_left.2
    ((pauses_subset_extent s).trans (extent_subset_of_ended ended))]

theorem length_shown_le (s : Stream ι κ α) (n : Nat) :
    ((s.shown rules n).length : ℕ∞) ≤ (s.yields rules).encard := by
  rw [← encard_yields_before]
  exact Set.encard_le_encard Set.inter_subset_left

variable (rules) in
/-- The elements are the first ones of the stream, as many as are wanted or all
there are, and no suspension was forced behind the last one that was wanted. -/
structure IsTake (n : Nat) (s : Stream ι κ α) (items : List α)
    (forced : Nat) : Prop where
  length : (items.length : ℕ∞) = min (n : ℕ∞) (s.yields rules).encard
  item : ∀ k a, items[k]? = some a →
    s.sight rules (s.elementPlace rules k) = some (.yield a)
  forced_zero : n = 0 → forced = 0
  forced_enough : ∀ k, n = k + 1 → (n : ℕ∞) ≤ (s.yields rules).encard →
    (forced : ℕ∞) =
      (s.pauses rules ∩ Set.Iio (s.elementPlace rules k)).encard
  forced_all : (s.yields rules).encard < (n : ℕ∞) →
    (forced : ℕ∞) = (s.pauses rules).encard

theorem length_shown_succ {s : Stream ι κ α} {n : Nat} {a : α}
    (found : s.sight rules n = some (.yield a)) :
    (s.shown rules (n + 1)).length = (s.shown rules n).length + 1 := by
  classical
  rw [length_shown, length_shown, Nat.count_succ, if_pos ⟨a, found⟩]

theorem ticks_succ {s : Stream ι κ α} {n : Nat} {a : α}
    (found : s.sight rules n = some (.yield a)) :
    s.ticks rules (n + 1) = s.ticks rules n := by
  classical
  rw [ticks_eq_count, ticks_eq_count, Nat.count_succ,
    if_neg (by simp [pauses, found]), Nat.add_zero]

/-- A number of elements is asked for: there are less, or none is wanted, or
the last step shows the last one that is wanted. -/
theorem HaltsAfter.upTo_outcome {n steps : Nat} {s : Stream ι κ α}
    (halts : s.HaltsAfter rules (.upTo n) 0 steps) :
    (s.shown rules steps).length < n ∧ s.remaining rules steps = .nil ∨
      n = 0 ∧ steps = 0 ∨
      ∃ before a, n = (s.shown rules before).length + 1 ∧
        steps = before + 1 ∧ s.sight rules before = some (.yield a) := by
  have reached := halts.outcome
  simp only [Demand.isMet, Nat.zero_add, decide_eq_true_eq,
    decide_eq_false_iff_not, Nat.not_le] at reached
  rcases reached with
    ended | ⟨enough, rfl | ⟨before, a, rfl, seen, short⟩⟩
  · exact Or.inl ended
  · exact Or.inr (Or.inl ⟨by simpa using enough, rfl⟩)
  · rw [length_shown_succ seen] at enough
    exact Or.inr (Or.inr ⟨before, a, by omega, rfl, seen⟩)

theorem HaltsAfter.isTake {n steps : Nat} {s : Stream ι κ α}
    (halts : s.HaltsAfter rules (.upTo n) 0 steps) :
    s.IsTake rules n (s.shown rules steps) (s.ticks rules steps) := by
  have item : ∀ k a, (s.shown rules steps)[k]? = some a →
      s.sight rules (s.elementPlace rules k) = some (.yield a) :=
    fun _ _ => sight_elementPlace_of_shown
  rcases halts.upTo_outcome with
    ⟨short, ended⟩ | ⟨rfl, rfl⟩ | ⟨before, a, rfl, rfl, seen⟩
  · have all := encard_yields_of_ended ended
    have fewer : (s.yields rules).encard < n := by
      rw [all]
      exact_mod_cast short
    exact {
      length := by rw [min_eq_right fewer.le, all]
      item := item
      forced_zero := fun none => absurd short (by simp [none])
      forced_enough := fun k _ within => absurd within (not_le.2 fewer)
      forced_all := fun _ => (encard_pauses_of_ended ended).symm }
  · exact {
      length := by simp
      item := item
      forced_zero := fun _ => rfl
      forced_enough := fun k positive => nomatch positive
      forced_all := fun fewer => by simp at fewer }
  · have counted := length_shown_succ seen
    have within : (((s.shown rules before).length + 1 : Nat) : ℕ∞) ≤
        (s.yields rules).encard := counted ▸ length_shown_le s (before + 1)
    exact {
      length := by rw [min_eq_left within, counted]
      item := item
      forced_zero := fun none => nomatch none
      forced_enough := by
        rintro k same _
        obtain rfl : (s.shown rules before).length = k := Nat.succ.inj same
        rw [elementPlace_of_sight seen, encard_pauses_before, ticks_succ seen]
      forced_all := fun fewer => absurd within (not_le.2 fewer) }

theorem not_mem_extent_iff {s : Stream ι κ α} {n : Nat} :
    n ∉ s.extent rules ↔ s.remaining rules n = .nil := by
  have front : (s.remaining rules n).sight rules 0 = s.sight rules n :=
    sight_remaining s n 0
  constructor
  · intro outside
    cases left : s.remaining rules n with
    | nil => rfl
    | cons a rest =>
        rw [left] at front
        exact absurd ⟨_, front.symm⟩ outside
    | delay suspension =>
        rw [left] at front
        exact absurd ⟨_, front.symm⟩ outside
  · intro ended inside
    exact lt_irrefl n (extent_subset_of_ended ended inside)

/-- A collection returns exactly if there is a position at which it has enough
or at which the stream has ended, and no fatal event comes before it. -/
theorem exists_takeReturns_iff {n : Nat} {s : Stream ι κ α} :
    (∃ outcome, s.TakeReturns rules (.upTo n) outcome) ↔
      ∃ p, (s.reports rules p).any rules.isFatal = false ∧
        ((n : ℕ∞) ≤ (s.yields rules ∩ Set.Iio p).encard ∨
          p ∉ s.extent rules) := by
  have enough : ∀ p, (n : ℕ∞) ≤ (s.yields rules ∩ Set.Iio p).encard ↔
      (Demand.upTo n).isMet (0 + (s.shown rules p).length) = true := by
    intro p
    rw [encard_yields_before, Nat.cast_le, Nat.zero_add, Demand.isMet,
      decide_eq_true_eq]
  simp only [enough, not_mem_extent_iff]
  constructor
  · rintro ⟨outcome, returns⟩
    obtain ⟨steps, halts, rfl⟩ := takeReturns_iff.1 returns
    refine ⟨steps, halts.calm, ?_⟩
    rcases halts.outcome with ⟨_, ended⟩ | ⟨met, _⟩
    · exact Or.inr ended
    · exact Or.inl met
  · rintro ⟨p, calm, reached⟩
    obtain ⟨steps, halts⟩ := HaltsAfter.exists_of_reached calm reached
    exact ⟨_, takeReturns_iff.2 ⟨steps, halts, rfl⟩⟩

/-- Whoever wants more elements than there are gets all of them. -/
theorem takeReturns_all_iff {n : Nat} {s : Stream ι κ α}
    (more : (s.yields rules).encard < n) {outcome : Traced ε (Harvest α)} :
    s.TakeReturns rules .all outcome ↔
      s.TakeReturns rules (.upTo n) outcome := by
  have unmet : ∀ steps, ∀ k ≤ (s.shown rules steps).length,
      (Demand.upTo n).isMet k = false := by
    intro steps k within
    have fewer : (s.shown rules steps).length < n := by
      exact_mod_cast (length_shown_le s steps).trans_lt more
    simp only [Demand.isMet, decide_eq_false_iff_not]
    omega
  have sameHarvest : ∀ steps, s.harvestAfter rules .all steps =
      s.harvestAfter rules (.upTo n) steps := by
    intro steps
    simp only [harvestAfter, Demand.endingAt, unmet steps _ le_rfl]
    rfl
  have sameSteps : ∀ steps, s.HaltsAfter rules .all 0 steps ↔
      s.HaltsAfter rules (.upTo n) 0 steps := by
    intro steps
    have alike : ∀ k ≤ (s.shown rules steps).length,
        (Demand.upTo n).isMet (0 + k) = Demand.all.isMet (0 + k) := by
      intro k within
      rw [Nat.zero_add, unmet steps k within]
      rfl
    exact ⟨fun halts => halts.congr alike,
      fun halts => halts.congr fun k within => (alike k within).symm⟩
  simp only [takeReturns_iff, sameSteps, sameHarvest]

/-! ### Iterators and forcing by hand -/

variable (rules) in
/-- A call of the iterator that holds the stream returns, and leaves it with
the rest. -/
def PullReturns (s : Stream ι κ α) (result : Option α)
    (rest : Stream ι κ α) : Prop :=
  ∃ limit, (s.pull rules limit).value = .returned result rest

end Stream

/-- What is found in front of a stream that has been forced. -/
def Advance.front {ι κ α : Type} (advance : Advance ι κ α) : Pull ι κ α :=
  match advance with
  | ⟨_, _, true⟩ => .stopped
  | ⟨.nil, _, false⟩ => .returned none .nil
  | ⟨.cons a rest, _, false⟩ => .returned (some a) rest
  | ⟨.delay _, _, false⟩ => .unfinished

namespace Stream

variable {ε ι κ α : Type} {rules : Rules ε ι κ α}

variable (rules) in
/-- Forcing the stream returns, and its first element is taken off. -/
def DrawReturns (s : Stream ι κ α) (result : Option α)
    (rest : Stream ι κ α) : Prop :=
  ∃ limit, (s.advance rules limit).value.front = .returned result rest

theorem value_pullFrom (limit forced : Nat) (trace trace' : List ε)
    (s : Stream ι κ α) :
    (s.pullFrom rules limit trace).value =
      (s.advanceFrom rules limit forced trace').value.front := by
  induction limit generalizing forced trace trace' s with
  | zero => cases s <;> simp [pullFrom, advanceFrom, Advance.front]
  | succ limit onLess =>
      cases s with
      | nil => simp [pullFrom, advanceFrom, Advance.front]
      | cons a rest => simp [pullFrom, advanceFrom, Advance.front]
      | delay suspension =>
          simp only [pullFrom, advanceFrom]
          split
          · rfl
          · exact onLess ..

/-- An iterator forces its stream and takes the first element off. -/
theorem pullReturns_eq_drawReturns :
    PullReturns rules = DrawReturns rules := by
  funext s result rest
  simp only [PullReturns, DrawReturns, pull, advance, value_pullFrom _ 0 [] []]

theorem haltsAfter_cons_one_iff {steps : Nat} {a : α} {rest : Stream ι κ α} :
    (cons a rest).HaltsAfter rules (.upTo 1) 0 steps ↔ steps = 1 := by
  constructor
  · intro halts
    exact halts.unique (.yield rfl (.satisfied rfl))
  · rintro rfl
    exact .yield rfl (.satisfied rfl)

theorem haltsAfter_delay_iff {demand : Demand} {count steps : Nat}
    {suspension : Suspension ι κ α} (unmet : demand.isMet count = false) :
    (delay suspension).HaltsAfter rules demand count steps ↔
      ∃ later, steps = later + 1 ∧
        (suspension.force rules).events.any rules.isFatal = false ∧
        (suspension.force rules).value.HaltsAfter rules demand count later := by
  constructor
  · intro halts
    cases halts with
    | satisfied met => simp [met] at unmet
    | tick _ calm later => exact ⟨_, rfl, calm, later⟩
  · rintro ⟨later, rfl, calm, halts⟩
    exact .tick unmet calm halts

theorem ticks_delay (suspension : Suspension ι κ α) (n : Nat) :
    (delay suspension).ticks rules (n + 1) =
      (suspension.force rules).value.ticks rules n + 1 :=
  Nat.add_comm ..

/-- A call of an iterator makes the steps to one element, and returns exactly if
it may force as many suspensions as there are on the way. -/
theorem value_pullFrom_eq_iff {limit : Nat} {trace : List ε}
    {s rest : Stream ι κ α} {result : Option α} :
    (s.pullFrom rules limit trace).value = .returned result rest ↔
      ∃ steps, s.HaltsAfter rules (.upTo 1) 0 steps ∧
        s.ticks rules steps ≤ limit ∧ result = (s.shown rules steps).head? ∧
        rest = s.remaining rules steps := by
  fun_induction pullFrom rules limit trace s with
  | case1 limit trace => simp [haltsAfter_nil_iff, ticks, eq_comm]
  | case2 limit trace a tail =>
      simp [haltsAfter_cons_one_iff, ticks, next, Sight.forced, shown,
        remaining, eq_comm]
  | case3 trace suspension =>
      simp only [reduceCtorEq, false_iff, not_exists, not_and]
      intro steps halts within
      obtain ⟨later, rfl, _⟩ := (haltsAfter_delay_iff rfl).1 halts
      rw [ticks_delay] at within
      omega
  | case4 trace limit suspension forced trace' fatal =>
      simp only [reduceCtorEq, false_iff, not_exists, not_and]
      intro steps halts
      obtain ⟨_, _, calm, _⟩ := (haltsAfter_delay_iff rfl).1 halts
      exact absurd fatal (by simp [forced, calm])
  | case5 trace limit suspension forced trace' calm onLater =>
      rw [onLater]
      constructor
      · rintro ⟨later, halts, within, rfl, rfl⟩
        refine ⟨later + 1, .tick rfl (by simpa using calm) halts, ?_, rfl, rfl⟩
        rw [ticks_delay]
        exact Nat.succ_le_succ within
      · rintro ⟨steps, halts, within, rfl, rfl⟩
        obtain ⟨later, rfl, _, halts⟩ := (haltsAfter_delay_iff rfl).1 halts
        rw [ticks_delay] at within
        exact ⟨later, halts, Nat.le_of_succ_le_succ within, rfl, rfl⟩

theorem pullReturns_iff {s rest : Stream ι κ α} {result : Option α} :
    s.PullReturns rules result rest ↔
      ∃ steps, s.HaltsAfter rules (.upTo 1) 0 steps ∧
        result = (s.shown rules steps).head? ∧
        rest = s.remaining rules steps := by
  simp only [PullReturns, pull, value_pullFrom_eq_iff]
  constructor
  · rintro ⟨limit, steps, halts, _, found⟩
    exact ⟨steps, halts, found⟩
  · rintro ⟨steps, halts, found⟩
    exact ⟨_, steps, halts, Nat.le_refl _, found⟩

/-- Calls one after the other, each for what the one before has left. -/
inductive InTurn (call : Stream ι κ α → Option α → Stream ι κ α → Prop) :
    Stream ι κ α → List (Option α) → Stream ι κ α → Prop where
  | none {s : Stream ι κ α} : InTurn call s [] s
  | next {s s' rest : Stream ι κ α} {result : Option α}
      {results : List (Option α)} (first : call s result s')
      (later : InTurn call s' results rest) :
      InTurn call s (result :: results) rest

/-- What a number of calls give: the elements, and nothing from then on. -/
def callResults (n : Nat) (items : List α) : List (Option α) :=
  items.map some ++ List.replicate (n - items.length) none

/-- After the steps to the first element, what is left is collected as from the
beginning. -/
theorem HaltsAfter.restart {first : Nat} {s : Stream ι κ α}
    (halts : s.HaltsAfter rules (.upTo 1) 0 first) (n later : Nat) :
    ((s.remaining rules first).HaltsAfter rules (.upTo (n + 1))
        (0 + (s.shown rules first).length) later ↔
      (s.remaining rules first).HaltsAfter rules (.upTo n) 0 later) ∧
    callResults (n + 1) (s.shown rules (first + later)) =
      (s.shown rules first).head? ::
        callResults n ((s.remaining rules first).shown rules later) := by
  rw [shown_add]
  rcases halts.upTo_outcome with
    ⟨short, ended⟩ | ⟨none, _⟩ | ⟨before, a, one, rfl, seen⟩
  · rw [ended, haltsAfter_nil_iff, haltsAfter_nil_iff,
      List.length_eq_zero_iff.1 (Nat.lt_one_iff.1 short)]
    simp [callResults, List.replicate_succ]
  · cases none
  · have single : (s.shown rules (before + 1)).length = 1 :=
      (length_shown_succ seen).trans one.symm
    have alike : ∀ k, (Demand.upTo n).isMet (0 + k) =
        (Demand.upTo (n + 1)).isMet (0 + 1 + k) := by
      intro k
      simp only [Demand.isMet, decide_eq_decide]
      omega
    rw [single]
    refine ⟨⟨fun halts => halts.congr fun k _ => alike k,
      fun halts => halts.congr fun k _ => (alike k).symm⟩, ?_⟩
    obtain ⟨b, shownOne⟩ := List.length_eq_one_iff.1 single
    simp [shownOne, callResults]

/-- Calls of an iterator make the steps of a collection of as many elements as
there are calls. -/
theorem pullsInTurn_iff {s rest : Stream ι κ α} {results : List (Option α)} :
    InTurn (PullReturns rules) s results rest ↔
      ∃ steps, s.HaltsAfter rules (.upTo results.length) 0 steps ∧
        results = callResults results.length (s.shown rules steps) ∧
        rest = s.remaining rules steps := by
  constructor
  · intro calls
    induction calls with
    | none => exact ⟨0, .satisfied rfl, by simp [callResults]⟩
    | @next s s' rest result results call _ onLater =>
        obtain ⟨first, halts, rfl, rfl⟩ := pullReturns_iff.1 call
        obtain ⟨later, halts', found, rfl⟩ := onLater
        have restart := halts.restart results.length later
        refine ⟨first + later, halts.append
          (Demand.upTo_within (Nat.succ_le_succ (Nat.zero_le _)))
          (restart.1.2 halts'), ?_, ?_⟩
        · rw [List.length_cons, restart.2, ← found]
        · rw [remaining_add]
  · rintro ⟨steps, halts, found, rfl⟩
    induction results generalizing s steps with
    | nil =>
        obtain rfl := halts.unique (.satisfied rfl)
        rw [remaining_zero]
        exact .none
    | cons result results onResults =>
        obtain ⟨first, later, rfl, halts, halts'⟩ := halts.split
          (Demand.upTo_within (Nat.succ_le_succ (Nat.zero_le _)))
        have restart := halts.restart results.length later
        rw [List.length_cons, restart.2, List.cons.injEq] at found
        rw [remaining_add]
        exact .next (pullReturns_iff.2 ⟨first, halts, found.1, rfl⟩)
          (onResults _ (restart.1.1 halts') found.2)

/-- A stream that has ended has nothing to give for ever. -/
theorem pullsInTurn_append {s rest : Stream ι κ α} {results : List (Option α)}
    (calls : InTurn (PullReturns rules) s results rest)
    (nothing : none ∈ results) (k : Nat) :
    InTurn (PullReturns rules) s (results ++ List.replicate k none) rest := by
  obtain ⟨steps, halts, found, rfl⟩ := pullsInTurn_iff.1 calls
  have short : (s.shown rules steps).length < results.length := by
    rw [found] at nothing
    by_contra enough
    simp [callResults, Nat.sub_eq_zero_of_le (Nat.le_of_not_lt enough)]
      at nothing
  refine pullsInTurn_iff.2 ⟨steps, halts.congr ?_, ?_, rfl⟩
  · intro i within
    simp only [Demand.isMet, decide_eq_decide, List.length_append,
      List.length_replicate]
    omega
  · conv_lhs => rw [found]
    rw [callResults, callResults, List.append_assoc,
      List.replicate_append_replicate, List.length_append,
      List.length_replicate, Nat.sub_add_comm short.le]

end Stream
end Relational
