/-
Module: Relational.Proofs.Mapping
Purpose: Applying a function to the elements of a stream changes nothing but
  the elements.
Main exports: Sight.map, Stream.Maps, Stream.Maps.sight, Stream.Maps.reports,
  Stream.Maps.takeReturns_iff, Stream.Maps.merge_sameFor, Stream.mapTo,
  Rules.mapped, Stream.map_transparent
-/
import Relational.Proofs.Agreement

namespace Relational

/-!
A function is applied to the mature elements at once, and to the others when
they appear.  Neither is seen by whoever consumes the stream: the elements stand
where they stood, and so do the suspensions.  It does not matter either whether
the function is applied before two streams are merged or after that, although
mapping runs along one mature part and merging along two in turns.

A function to elements of another kind gives a stream of another kind, and what
is put off in it is still the work of the stream that was mapped: its tasks are
the suspensions of that stream.  Both maps have the same laws, for the same
reasons.
-/

/-- What is seen, with a function applied to an element. -/
def Sight.map {α β : Type} (f : α → β) : Sight α → Sight β
  | .yield a => .yield (f a)
  | .tick => .tick

namespace Stream

variable {ε ι κ α ι' κ' β : Type}

/-- The images of streams have the values of a function for elements, and their
suspensions are forced to the images of what was forced before. -/
structure Maps (rules : Rules ε ι κ α) (rules' : Rules ε ι' κ' β) (f : α → β)
    (image : Stream ι κ α → Stream ι' κ' β) : Prop where
  nil : image .nil = .nil
  cons : ∀ a rest, image (.cons a rest) = .cons (f a) (image rest)
  delay : ∀ suspension, ∃ suspension',
    image (.delay suspension) = .delay suspension' ∧
      suspension'.force rules' = (suspension.force rules).map image
  isFatal : rules'.isFatal = rules.isFatal

namespace Maps

variable {rules : Rules ε ι κ α} {rules' : Rules ε ι' κ' β} {f : α → β}
  {image : Stream ι κ α → Stream ι' κ' β} (maps : Maps rules rules' f image)

include maps

/-! ### Steps of an image -/

/-- A step of the image is the mapped step. -/
theorem next (s : Stream ι κ α) :
    (image s).next rules' =
      (s.next rules).map (Prod.map (Sight.map f) image) := by
  cases s with
  | nil => rw [maps.nil]; rfl
  | cons a rest => rw [maps.cons]; rfl
  | delay suspension =>
      obtain ⟨suspension', built, forced⟩ := maps.delay suspension
      rw [built, Stream.next, forced, Traced.value_map]
      rfl

theorem sight (s : Stream ι κ α) (n : Nat) :
    (image s).sight rules' n = (s.sight rules n).map (Sight.map f) := by
  induction n generalizing s with
  | zero =>
      rw [Stream.sight, Stream.sight, maps.next, Option.map_map,
        Option.map_map]
      rfl
  | succ n earlier =>
      rw [Stream.sight, Stream.sight, maps.next]
      cases s.next rules with
      | none => rfl
      | some step => exact earlier step.2

theorem ticks (s : Stream ι κ α) (n : Nat) :
    (image s).ticks rules' n = s.ticks rules n := by
  induction n generalizing s with
  | zero => rfl
  | succ n earlier =>
      rw [Stream.ticks, Stream.ticks, maps.next]
      cases s.next rules with
      | none => rfl
      | some step =>
          rcases step with ⟨seen, rest⟩
          cases seen with
          | yield a => exact congrArg (0 + ·) (earlier rest)
          | tick => exact congrArg (1 + ·) (earlier rest)

/-- Applying a function reports nothing and hides nothing. -/
theorem reports (s : Stream ι κ α) (n : Nat) :
    (image s).reports rules' n = s.reports rules n := by
  induction n generalizing s with
  | zero => cases s <;> cases image _ <;> simp [Stream.reports]
  | succ n earlier =>
      cases s with
      | nil => rw [maps.nil]; rfl
      | cons a rest =>
          rw [maps.cons]
          exact earlier rest
      | delay suspension =>
          obtain ⟨suspension', built, forced⟩ := maps.delay suspension
          rw [built, Stream.reports, Stream.reports, forced, Traced.events_map,
            Traced.value_map, earlier]

theorem shown (s : Stream ι κ α) (n : Nat) :
    (image s).shown rules' n = (s.shown rules n).map f := by
  induction n generalizing s with
  | zero => rw [shown_zero, shown_zero, List.map_nil]
  | succ n earlier =>
      cases s with
      | nil => rw [maps.nil]; rfl
      | cons a rest =>
          rw [maps.cons]
          exact congrArg (f a :: ·) (earlier rest)
      | delay suspension =>
          obtain ⟨suspension', built, forced⟩ := maps.delay suspension
          rw [built, Stream.shown, Stream.shown, forced, Traced.value_map,
            earlier]

/-! ### Collecting from an image -/

/-- A collection from the image comes to its end after as many steps as one from
the stream. -/
theorem haltsAfter_iff {demand : Demand} {count steps : Nat}
    {s : Stream ι κ α} :
    (image s).HaltsAfter rules' demand count steps ↔
      s.HaltsAfter rules demand count steps := by
  induction steps generalizing count s with
  | zero =>
      cases s with
      | nil => rw [maps.nil, haltsAfter_nil_iff, haltsAfter_nil_iff]
      | cons a rest =>
          rw [maps.cons]
          constructor <;> rintro ⟨met⟩ <;> exact .satisfied met
      | delay suspension =>
          obtain ⟨suspension', built, _⟩ := maps.delay suspension
          rw [built]
          constructor <;> rintro ⟨met⟩ <;> exact .satisfied met
  | succ steps earlier =>
      cases s with
      | nil => rw [maps.nil, haltsAfter_nil_iff, haltsAfter_nil_iff]
      | cons a rest =>
          rw [maps.cons]
          constructor
          · rintro (_ | _ | ⟨unmet, later⟩)
            exact .yield unmet (earlier.1 later)
          · rintro (_ | _ | ⟨unmet, later⟩)
            exact .yield unmet (earlier.2 later)
      | delay suspension =>
          obtain ⟨suspension', built, forced⟩ := maps.delay suspension
          have together : (suspension'.force rules').events.any rules'.isFatal =
              (suspension.force rules).events.any rules.isFatal := by
            rw [forced, maps.isFatal, Traced.events_map]
          rw [built]
          constructor
          · rintro (_ | _ | _ | ⟨unmet, calm, later⟩)
            rw [forced] at later
            exact .tick unmet (together.symm.trans calm) (earlier.1 later)
          · rintro (_ | _ | _ | ⟨unmet, calm, later⟩)
            refine .tick unmet (together.trans calm) ?_
            rw [forced]
            exact earlier.2 later

theorem harvestAfter (s : Stream ι κ α) (demand : Demand) (steps : Nat) :
    (image s).harvestAfter rules' demand steps =
      (s.harvestAfter rules demand steps).map (Harvest.map f) := by
  rw [Stream.harvestAfter, maps.shown, maps.ticks, maps.reports,
    List.length_map]
  rfl

/-- Collecting from the image makes the steps of collecting from the stream. -/
theorem takeReturns_iff {s : Stream ι κ α} {demand : Demand}
    {outcome : Traced ε (Harvest β)} :
    (image s).TakeReturns rules' demand outcome ↔
      ∃ plain, s.TakeReturns rules demand plain ∧
        outcome = plain.map (Harvest.map f) := by
  constructor
  · intro returns
    obtain ⟨steps, halts, rfl⟩ := Stream.takeReturns_iff.1 returns
    exact ⟨_, Stream.takeReturns_iff.2
      ⟨steps, maps.haltsAfter_iff.1 halts, rfl⟩, maps.harvestAfter s _ steps⟩
  · rintro ⟨plain, returns, rfl⟩
    obtain ⟨steps, halts, rfl⟩ := Stream.takeReturns_iff.1 returns
    exact Stream.takeReturns_iff.2 ⟨steps, maps.haltsAfter_iff.2 halts,
      (maps.harvestAfter s _ steps).symm⟩

/-! ### Merging images -/

/-- A function may be applied before two streams are merged or after it. -/
theorem merge_sameFor (n : Nat) (left right : Stream ι κ α) :
    SameFor rules' n (image (left.merge right))
      ((image left).merge (image right)) := by
  induction n generalizing left right with
  | zero => exact .unseen
  | succ n earlier =>
      cases left with
      | nil =>
          rw [merge_nil, maps.nil, merge_nil]
          exact .refl _ _
      | cons a rest =>
          rw [merge_cons, maps.cons, maps.cons, merge_cons]
          exact .cons (earlier right rest)
      | delay suspension =>
          obtain ⟨inner, built, forced⟩ := maps.delay suspension
          obtain ⟨whole, built', forced'⟩ :=
            maps.delay (.merge right suspension)
          rw [Suspension.force_merge] at forced'
          rw [merge_delay, built', built, merge_delay]
          refine .delay ?_ ?_
          · rw [forced', Suspension.force_merge, forced]
            rfl
          · rw [forced', Suspension.force_merge, forced]
            exact earlier right _

end Maps

/-! ### The two maps -/

variable {rules : Rules ε ι κ α}

variable (rules) in
theorem maps_map (f : α → α) : Maps rules rules f (map f) where
  nil := rfl
  cons := map_cons f
  delay suspension := ⟨.map f suspension, rfl, Suspension.force_map ..⟩
  isFatal := rfl

/-- Applies a function to every element, now to the mature ones; the suspension
that ends the stream becomes a task. -/
def mapTo (f : α → β) (s : Stream ι κ α) : Stream (Suspension ι κ α) κ' β :=
  prependAll (s.mature.map f)
    (s.ending.elim .nil fun suspension => .delay (.task suspension))

end Stream

/-- The tasks of a mapped stream are suspensions of the stream itself. -/
def Rules.mapped {ε ι κ α κ' β : Type} (rules : Rules ε ι κ α) (f : α → β)
    (apply : κ' → β → Traced ε (Stream (Suspension ι κ α) κ' β)) :
    Rules ε (Suspension ι κ α) κ' β where
  run suspension := (suspension.force rules).map (Stream.mapTo f)
  apply := apply
  isFatal := rules.isFatal

namespace Stream

variable {ε ι κ α κ' β : Type} (rules : Rules ε ι κ α)

theorem maps_mapTo (f : α → β)
    (apply : κ' → β → Traced ε (Stream (Suspension ι κ α) κ' β)) :
    Maps rules (rules.mapped f apply) f (mapTo f) where
  nil := rfl
  cons a rest := by rw [mapTo, mature_cons]; rfl
  delay suspension := ⟨.task suspension, rfl, Suspension.force_task ..⟩
  isFatal := rfl

/-- A mapped stream has the unfolding of the stream with the function applied to
every element; suspensions stand where they stood and report what they reported.
So a collection from it returns if and only if the collection from the stream
does, with the values of the same elements, after as many forced suspensions.
The function can be applied before streams are merged or after it.  All this
holds of functions to elements of another kind as well. -/
theorem map_transparent (f : α → α) (s t : Stream ι κ α) :
    (∀ n, (s.map f).sight rules n = (s.sight rules n).map (Sight.map f) ∧
      (s.map f).reports rules n = s.reports rules n) ∧
    (∀ demand outcome, (s.map f).TakeReturns rules demand outcome ↔
      ∃ plain, s.TakeReturns rules demand plain ∧
        outcome = plain.map (Harvest.map f)) ∧
    ((s.merge t).map f).SameUnfolding rules ((s.map f).merge (t.map f)) ∧
    ∀ {κ' β : Type} (g : α → β)
        (apply : κ' → β → Traced ε (Stream (Suspension ι κ α) κ' β)),
      (∀ n, (s.mapTo g).sight (rules.mapped g apply) n =
          (s.sight rules n).map (Sight.map g) ∧
        (s.mapTo g).reports (rules.mapped g apply) n = s.reports rules n) ∧
      (∀ demand outcome,
        (s.mapTo g).TakeReturns (rules.mapped g apply) demand outcome ↔
          ∃ plain, s.TakeReturns rules demand plain ∧
            outcome = plain.map (Harvest.map g)) ∧
      ((s.merge t).mapTo g).SameUnfolding (rules.mapped g apply)
        ((s.mapTo g).merge (t.mapTo g)) := by
  have transparent := maps_map rules f
  refine ⟨fun n => ⟨transparent.sight s n, transparent.reports s n⟩,
    fun _ _ => transparent.takeReturns_iff,
    sameUnfolding_iff.2 fun n => transparent.merge_sameFor n s t, ?_⟩
  intro κ' β g apply
  have transparent := maps_mapTo rules g apply
  exact ⟨fun n => ⟨transparent.sight s n, transparent.reports s n⟩,
    fun _ _ => transparent.takeReturns_iff,
    sameUnfolding_iff.2 fun n => transparent.merge_sameFor n s t⟩

end Stream

end Relational
