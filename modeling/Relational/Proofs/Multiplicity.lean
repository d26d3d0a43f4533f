/-
Module: Relational.Proofs.Multiplicity
Purpose: How often the elements of a stream occur does not depend on the shape
  in which the stream was put together.
Main exports: Bag, Bag.Same, Stream.bag, Stream.bag_merge, Stream.bag_bind,
  Stream.count, Rules.Reshaped, Rules.Reshaped.same
-/
import Mathlib.Data.Set.Card
import Mathlib.Logic.Equiv.Sum
import Relational.Proofs.Unfolding

namespace Relational

/-!
Streams that are put together in different ways show their elements in different
orders, and they may be infinite.  What they have in common is that every
occurrence of an element in one of them has a partner in the other one.

An infinite stream has no multiset of elements, but it has a family of them, one
for each position that shows an element.  Such families are compared by
bijections of their indices.  Merging adds two families, and binding adds up the
families of the results over all occurrences, so whatever holds of sums holds of
streams, whatever their order is.
-/

/-! ### Bags -/

/-- A family of elements.  Only how often each element occurs in it is of
interest. -/
structure Bag (α : Type) where
  Index : Type
  item : Index → α

namespace Bag

variable {α β γ : Type}

/-- The occurrences of the two bags are in bijection, and partners are
occurrences of one element. -/
def Same (bag bag' : Bag α) : Prop :=
  ∃ pairing : bag.Index ≃ bag'.Index,
    ∀ index, bag'.item (pairing index) = bag.item index

/-- All occurrences of the one and of the other. -/
def sum (left right : Bag α) : Bag α :=
  ⟨left.Index ⊕ right.Index, Sum.elim left.item right.item⟩

/-- All occurrences of what each occurrence is replaced by. -/
def bind (bag : Bag α) (f : α → Bag β) : Bag β :=
  ⟨Σ index : bag.Index, (f (bag.item index)).Index,
    fun index => (f (bag.item index.1)).item index.2⟩

/-- How many occurrences meet the test. -/
noncomputable def count (test : α → Prop) (bag : Bag α) : ℕ∞ :=
  ENat.card { index : bag.Index // test (bag.item index) }

namespace Same

variable {left left' right right' middle : Bag α}

theorem refl (bag : Bag α) : bag.Same bag := ⟨.refl _, fun _ => rfl⟩

theorem symm (same : left.Same right) : right.Same left := by
  obtain ⟨pairing, items⟩ := same
  refine ⟨pairing.symm, fun index => ?_⟩
  rw [← items, pairing.apply_symm_apply]

theorem trans (first : left.Same middle) (second : middle.Same right) :
    left.Same right := by
  obtain ⟨pairing, items⟩ := first
  obtain ⟨pairing', items'⟩ := second
  exact ⟨pairing.trans pairing', fun index =>
    (items' (pairing index)).trans (items index)⟩

theorem sum (lefts : left.Same left') (rights : right.Same right') :
    (left.sum right).Same (left'.sum right') := by
  obtain ⟨pairing, items⟩ := lefts
  obtain ⟨pairing', items'⟩ := rights
  exact ⟨pairing.sumCongr pairing', Sum.rec items items'⟩

theorem bind (bags : left.Same right) {f f' : α → Bag β}
    (each : ∀ a, (f a).Same (f' a)) : (left.bind f).Same (right.bind f') := by
  obtain ⟨pairing, items⟩ := bags
  have inside : ∀ index,
      (f (left.item index)).Same (f' (right.item (pairing index))) := by
    intro index
    rw [items]
    exact each _
  choose pairingInside itemsInside using inside
  exact ⟨Equiv.sigmaCongr pairing pairingInside, fun index =>
    itemsInside index.1 index.2⟩

theorem count (same : left.Same right) (test : α → Prop) :
    left.count test = right.count test := by
  obtain ⟨pairing, items⟩ := same
  refine ENat.card_congr (pairing.subtypeEquiv fun index => ?_)
  rw [items]

end Same

theorem sum_comm (left right : Bag α) :
    (left.sum right).Same (right.sum left) :=
  ⟨Equiv.sumComm _ _, Sum.rec (fun _ => rfl) fun _ => rfl⟩

theorem sum_assoc (left middle right : Bag α) :
    ((left.sum middle).sum right).Same (left.sum (middle.sum right)) :=
  ⟨Equiv.sumAssoc _ _ _,
    Sum.rec (Sum.rec (fun _ => rfl) fun _ => rfl) fun _ => rfl⟩

theorem bind_assoc (bag : Bag α) (f : α → Bag β) (g : β → Bag γ) :
    ((bag.bind f).bind g).Same (bag.bind fun a => (f a).bind g) :=
  ⟨Equiv.sigmaAssoc fun index inner =>
    (g ((f (bag.item index)).item inner)).Index, fun _ => rfl⟩

theorem sum_bind (left right : Bag α) (f : α → Bag β) :
    ((left.sum right).bind f).Same ((left.bind f).sum (right.bind f)) :=
  ⟨Equiv.sumSigmaDistrib _, by
    rintro ⟨index | index, inner⟩
    · rfl
    · rfl⟩

theorem bind_sum (bag : Bag α) (f g : α → Bag β) :
    (bag.bind fun a => (f a).sum (g a)).Same ((bag.bind f).sum (bag.bind g)) :=
  ⟨Equiv.sigmaSumDistrib _ _, by
    rintro ⟨index, inner | inner⟩
    · rfl
    · rfl⟩

end Bag

/-! ### The bag of a stream -/

variable {ε ι κ α : Type} {rules : Rules ε ι κ α}

namespace Stream

variable (rules) in
/-- The positions of a stream that show an element, each with its element. -/
def bag (s : Stream ι κ α) : Bag α :=
  ⟨{ shown : Nat × α // s.sight rules shown.1 = some (.yield shown.2) },
    fun shown => shown.1.2⟩

variable (rules) in
/-- At how many positions of its whole unfolding a stream shows an element that
meets the test. -/
noncomputable def count (test : α → Prop) (s : Stream ι κ α) : ℕ∞ :=
  Set.encard { n | ∃ a, s.sight rules n = some (.yield a) ∧ test a }

/-- There is one element at a position. -/
theorem occurrence_ext {s : Stream ι κ α} {shown shown' : (s.bag rules).Index}
    (same : shown.1.1 = shown'.1.1) : shown = shown' := by
  obtain ⟨⟨n, a⟩, found⟩ := shown
  obtain ⟨⟨n', a'⟩, found'⟩ := shown'
  obtain rfl : n = n' := same
  obtain rfl : a = a' :=
    Sight.yield.inj (Option.some.inj (found.symm.trans found'))
  rfl

theorem count_bag (test : α → Prop) (s : Stream ι κ α) :
    (s.bag rules).count test = s.count rules test := by
  refine ENat.card_congr (Equiv.ofBijective
    (fun shown => ⟨shown.1.1.1, shown.1.1.2, shown.1.2, shown.2⟩) ⟨?_, ?_⟩)
  · intro shown shown' same
    exact Subtype.ext (occurrence_ext (congrArg Subtype.val same))
  · rintro ⟨n, a, found, met⟩
    exact ⟨⟨⟨⟨n, a⟩, found⟩, met⟩, rfl⟩

/-- A stream has the elements of a bag if every occurrence in the bag has a
place of its own in the stream, and there are no other places. -/
theorem bag_same_of_places {s : Stream ι κ α} {bag : Bag α}
    (place : bag.Index → Nat)
    (shown : ∀ index,
      s.sight rules (place index) = some (.yield (bag.item index)))
    (injective : place.Injective)
    (covered : ∀ n a, s.sight rules n = some (.yield a) →
      ∃ index, place index = n) :
    (s.bag rules).Same bag := by
  let occurrence : bag.Index → (s.bag rules).Index :=
    fun index => ⟨⟨place index, bag.item index⟩, shown index⟩
  have bijective : occurrence.Bijective := by
    constructor
    · intro index other same
      exact injective (congrArg (fun occurrence => occurrence.1.1) same)
    · rintro ⟨⟨n, a⟩, found⟩
      obtain ⟨index, rfl⟩ := covered n a found
      obtain rfl := Sight.yield.inj (Option.some.inj (found.symm.trans
        (shown index)))
      exact ⟨index, rfl⟩
  exact Bag.Same.symm ⟨Equiv.ofBijective occurrence bijective, fun _ => rfl⟩

end Stream

/-- What a continuation finds for an element. -/
def Rules.results (rules : Rules ε ι κ α) (continuation : κ) (a : α) : Bag α :=
  (rules.apply continuation a).value.bag rules

namespace Stream

theorem bag_merge (left right : Stream ι κ α) :
    ((left.merge right).bag rules).Same
      ((left.bag rules).sum (right.bag rules)) := by
  refine bag_same_of_places
    (Sum.elim (fun shown => left.leftPlace rules right shown.1.1)
      (fun shown => left.rightPlace rules right shown.1.1)) ?_ ?_ ?_
  · rintro (shown | shown)
    · exact sight_leftPlace right shown.2
    · exact sight_rightPlace left shown.2
  · rintro (shown | shown) (shown' | shown') same
    · exact congrArg Sum.inl
        (occurrence_ext (leftPlace_inj shown.2 shown'.2 same))
    · exact absurd same (leftPlace_ne_rightPlace shown.2 shown'.2)
    · exact absurd same.symm (leftPlace_ne_rightPlace shown'.2 shown.2)
    · exact congrArg Sum.inr
        (occurrence_ext (rightPlace_inj shown.2 shown'.2 same))
  · intro n a found
    rcases exists_place_of_sight_merge found with
      ⟨k, shown, place⟩ | ⟨k, shown, place⟩
    · exact ⟨.inl ⟨⟨k, a⟩, shown⟩, place⟩
    · exact ⟨.inr ⟨⟨k, a⟩, shown⟩, place⟩

theorem bag_bind (s : Stream ι κ α) (continuation : κ) :
    ((s.bind rules continuation).value.bag rules).Same
      ((s.bag rules).bind (rules.results continuation)) := by
  refine bag_same_of_places (fun shown =>
    s.bindPlace rules continuation shown.1.1.1 shown.2.1.1) ?_ ?_ ?_
  · exact fun ⟨element, found⟩ => sight_bindPlace element.2 found.2
  · rintro ⟨element, found⟩ ⟨element', found'⟩ same
    obtain ⟨sameElement, sameStep⟩ :=
      bindPlace_injective element.2 element'.2 found.2 found'.2 same
    obtain rfl := occurrence_ext sameElement
    obtain rfl := occurrence_ext sameStep
    rfl
  · intro m c found
    obtain ⟨n, a, j, element, shown, place⟩ := exists_bindPlace found
    exact ⟨⟨⟨⟨n, a⟩, element⟩, ⟨⟨j, c⟩, shown⟩⟩, place⟩

/-- A suspension shows what it is forced to, one position later. -/
theorem bag_delay (suspension : Suspension ι κ α) :
    ((Stream.delay suspension).bag rules).Same
      ((suspension.force rules).value.bag rules) := by
  refine bag_same_of_places (fun shown => shown.1.1 + 1) ?_ ?_ ?_
  · exact fun shown => shown.2
  · exact fun shown shown' same => occurrence_ext (Nat.succ.inj same)
  · intro n a found
    cases n with
    | zero => cases found
    | succ n => exact ⟨⟨⟨n, a⟩, found⟩, rfl⟩

/-- Streams with the same bag show the same elements equally often. -/
theorem count_eq_of_same {s s' : Stream ι κ α}
    (same : (s.bag rules).Same (s'.bag rules)) (test : α → Prop) :
    s.count rules test = s'.count rules test := by
  rw [← count_bag, ← count_bag, same.count]

end Stream

/-! ### Reshaping

A continuation is known by its name only, and the rules say what it does.  So a
search that is put together from searches is one whose name stands for the right
thing. -/

namespace Rules

section

variable (rules : Rules ε ι κ α)

/-- The whole applies the second part to every element that the first part
finds. -/
def IsConj (whole first second : κ) : Prop :=
  ∀ a, (rules.apply whole a).value =
    ((rules.apply first a).value.bind rules second).value

/-- The whole merges what its two sides find. -/
def IsDisj (whole left right : κ) : Prop :=
  ∀ a, (rules.apply whole a).value =
    (rules.apply left a).value.merge (rules.apply right a).value

/-- The whole puts off its body. -/
def IsSuspend (whole body : κ) : Prop :=
  ∀ a, ∃ suspension, (rules.apply whole a).value = .delay suspension ∧
    (suspension.force rules).value = (rules.apply body a).value

/-- The whole goes on with a body that may depend on the element, from another
element that may depend on it as well. -/
def Enters (whole : κ) (body : α → κ) (entry : α → α) : Prop :=
  ∀ a, (rules.apply whole a).value = (rules.apply (body a) (entry a)).value

end

end Rules

namespace Stream

variable (s t r : Stream ι κ α) {f g h : κ}

theorem same_merge_comm :
    ((s.merge t).bag rules).Same ((t.merge s).bag rules) :=
  (bag_merge s t).trans ((Bag.sum_comm _ _).trans (bag_merge t s).symm)

theorem same_merge_assoc :
    (((s.merge t).merge r).bag rules).Same
      ((s.merge (t.merge r)).bag rules) := by
  have left : (((s.merge t).merge r).bag rules).Same
      (((s.bag rules).sum (t.bag rules)).sum (r.bag rules)) :=
    (bag_merge _ r).trans ((bag_merge s t).sum (.refl _))
  have right : ((s.merge (t.merge r)).bag rules).Same
      ((s.bag rules).sum ((t.bag rules).sum (r.bag rules))) :=
    (bag_merge s _).trans ((Bag.Same.refl _).sum (bag_merge t r))
  exact left.trans ((Bag.sum_assoc _ _ _).trans right.symm)

theorem same_bind_assoc (composed : rules.IsConj h f g) :
    (((s.bind rules f).value.bind rules g).value.bag rules).Same
      ((s.bind rules h).value.bag rules) := by
  have left : (((s.bind rules f).value.bind rules g).value.bag rules).Same
      (((s.bag rules).bind (rules.results f)).bind (rules.results g)) :=
    (bag_bind _ g).trans ((bag_bind s f).bind fun _ => .refl _)
  have right : ((s.bind rules h).value.bag rules).Same
      ((s.bag rules).bind fun a =>
        (rules.results f a).bind (rules.results g)) := by
    refine (bag_bind s h).trans ((Bag.Same.refl _).bind fun a => ?_)
    rw [Rules.results, composed]
    exact bag_bind _ g
  exact left.trans ((Bag.bind_assoc _ _ _).trans right.symm)

theorem same_merge_bind :
    (((s.merge t).bind rules g).value.bag rules).Same
      (((s.bind rules g).value.merge (t.bind rules g).value).bag rules) := by
  have left : (((s.merge t).bind rules g).value.bag rules).Same
      (((s.bag rules).sum (t.bag rules)).bind (rules.results g)) :=
    (bag_bind _ g).trans ((bag_merge s t).bind fun _ => .refl _)
  have right : (((s.bind rules g).value.merge
        (t.bind rules g).value).bag rules).Same
      (((s.bag rules).bind (rules.results g)).sum
        ((t.bag rules).bind (rules.results g))) :=
    (bag_merge _ _).trans ((bag_bind s g).sum (bag_bind t g))
  exact left.trans ((Bag.sum_bind _ _ _).trans right.symm)

theorem same_bind_merge (merged : rules.IsDisj h f g) :
    ((s.bind rules h).value.bag rules).Same
      (((s.bind rules f).value.merge (s.bind rules g).value).bag rules) := by
  have left : ((s.bind rules h).value.bag rules).Same
      ((s.bag rules).bind fun a =>
        (rules.results f a).sum (rules.results g a)) := by
    refine (bag_bind s h).trans ((Bag.Same.refl _).bind fun a => ?_)
    rw [Rules.results, merged]
    exact bag_merge _ _
  have right : (((s.bind rules f).value.merge
        (s.bind rules g).value).bag rules).Same
      (((s.bag rules).bind (rules.results f)).sum
        ((s.bag rules).bind (rules.results g))) :=
    (bag_merge _ _).trans ((bag_bind s f).sum (bag_bind s g))
  exact left.trans ((Bag.bind_sum _ _ _).trans right.symm)

/-- Merging streams with the same elements. -/
theorem same_merge {s s' t t' : Stream ι κ α}
    (lefts : (s.bag rules).Same (s'.bag rules))
    (rights : (t.bag rules).Same (t'.bag rules)) :
    ((s.merge t).bag rules).Same ((s'.merge t').bag rules) :=
  (bag_merge s t).trans ((lefts.sum rights).trans (bag_merge s' t').symm)

/-- Binding streams with the same elements to continuations that find the
same. -/
theorem same_bind {s s' : Stream ι κ α}
    (streams : (s.bag rules).Same (s'.bag rules)) {f f' : κ}
    (each : ∀ a, (rules.results f a).Same (rules.results f' a)) :
    ((s.bind rules f).value.bag rules).Same
      ((s'.bind rules f').value.bag rules) :=
  (bag_bind s f).trans ((streams.bind each).trans (bag_bind s' f').symm)

end Stream

namespace Rules

variable (rules) in
/-- The one continuation becomes the other one by rewriting parts of it: by
putting brackets elsewhere, by exchanging the sides of disjunctions, by
distributing conjunctions over disjunctions, and by putting off parts or not
doing so. -/
inductive Reshaped : κ → κ → Prop where
  | refl (f : κ) : Reshaped f f
  | symm {f f' : κ} (reshaped : Reshaped f f') : Reshaped f' f
  | trans {f f' f'' : κ} (first : Reshaped f f') (second : Reshaped f' f'') :
      Reshaped f f''
  | conj {f f' g g' h h' : κ} (whole : rules.IsConj h f g)
      (whole' : rules.IsConj h' f' g') (first : Reshaped f f')
      (second : Reshaped g g') : Reshaped h h'
  | disj {f f' g g' h h' : κ} (whole : rules.IsDisj h f g)
      (whole' : rules.IsDisj h' f' g') (left : Reshaped f f')
      (right : Reshaped g g') : Reshaped h h'
  | enter {h h' : κ} {body body' : α → κ} {entry : α → α}
      (whole : rules.Enters h body entry)
      (whole' : rules.Enters h' body' entry)
      (inside : ∀ a, Reshaped (body a) (body' a)) : Reshaped h h'
  | suspend {f h : κ} (whole : rules.IsSuspend h f) : Reshaped f h
  | conjAssoc {e f g fg ef whole whole' : κ} (inner : rules.IsConj ef e f)
      (outer : rules.IsConj whole ef g) (inner' : rules.IsConj fg f g)
      (outer' : rules.IsConj whole' e fg) : Reshaped whole whole'
  | disjAssoc {e f g fg ef whole whole' : κ} (inner : rules.IsDisj ef e f)
      (outer : rules.IsDisj whole ef g) (inner' : rules.IsDisj fg f g)
      (outer' : rules.IsDisj whole' e fg) : Reshaped whole whole'
  | disjComm {f g whole whole' : κ} (outer : rules.IsDisj whole f g)
      (outer' : rules.IsDisj whole' g f) : Reshaped whole whole'
  | conjDisj {e f g fg ef eg whole whole' : κ} (inner : rules.IsDisj fg f g)
      (outer : rules.IsConj whole e fg) (left : rules.IsConj ef e f)
      (right : rules.IsConj eg e g) (outer' : rules.IsDisj whole' ef eg) :
      Reshaped whole whole'
  | disjConj {e f g ef eg fg whole whole' : κ} (inner : rules.IsDisj ef e f)
      (outer : rules.IsConj whole ef g) (left : rules.IsConj eg e g)
      (right : rules.IsConj fg f g) (outer' : rules.IsDisj whole' eg fg) :
      Reshaped whole whole'

/-- Rewriting a continuation keeps what it finds. -/
theorem Reshaped.same {f f' : κ} (reshaped : rules.Reshaped f f') (a : α) :
    (rules.results f a).Same (rules.results f' a) := by
  induction reshaped generalizing a with
  | refl f => exact .refl _
  | symm _ inside => exact (inside a).symm
  | trans _ _ first second => exact (first a).trans (second a)
  | conj whole whole' _ _ first second =>
      rw [results, results, whole, whole']
      exact Stream.same_bind (first a) second
  | disj whole whole' _ _ left right =>
      rw [results, results, whole, whole']
      exact Stream.same_merge (left a) (right a)
  | enter whole whole' _ inside =>
      rw [results, results, whole, whole']
      exact inside a _
  | suspend whole =>
      obtain ⟨suspension, put, forced⟩ := whole a
      rw [results, results, put, ← forced]
      exact (Stream.bag_delay suspension).symm
  | conjAssoc inner outer inner' outer' =>
      rw [results, results, outer, inner, outer']
      exact Stream.same_bind_assoc _ inner'
  | disjAssoc inner outer inner' outer' =>
      rw [results, results, outer, inner, outer', inner']
      exact Stream.same_merge_assoc _ _ _
  | disjComm outer outer' =>
      rw [results, results, outer, outer']
      exact Stream.same_merge_comm _ _
  | conjDisj inner outer left right outer' =>
      rw [results, results, outer, outer', left, right]
      exact Stream.same_bind_merge _ inner
  | disjConj inner outer left right outer' =>
      rw [results, results, outer, inner, outer', left, right]
      exact Stream.same_merge_bind _ _

end Rules

end Relational
