/-
Module: Relational.Traced
Purpose: Results together with the events reported on the way to them.
Main exports: Traced, Traced.pure, Traced.bind, Traced.sequence, Traced.stopAt
-/

namespace Relational

/-- A result and the events that were reported while it was computed, in order.  The result never
depends on the events. -/
structure Traced (ε α : Type) where
  value : α
  events : List ε
deriving Repr

namespace Traced

variable {ε α β : Type}

/-- A result without events. -/
def pure (value : α) : Traced ε α := ⟨value, []⟩

/-- The same events with another result. -/
def map (f : α → β) (traced : Traced ε α) : Traced ε β := ⟨f traced.value, traced.events⟩

/-- One computation after the other; the events of the first come first. -/
def bind (traced : Traced ε α) (next : α → Traced ε β) : Traced ε β :=
  let result := next traced.value
  ⟨result.value, traced.events ++ result.events⟩

/-- Reports an event ahead of a computation's own. -/
def after (event : ε) (traced : Traced ε α) : Traced ε α :=
  ⟨traced.value, event :: traced.events⟩

/-- All results of a list of computations, with all their events in order. -/
def sequence (list : List (Traced ε α)) : Traced ε (List α) :=
  ⟨list.map value, list.flatMap events⟩

/-- Reports events ahead of a computation's own. -/
def log (events : List ε) (traced : Traced ε α) : Traced ε α :=
  ⟨traced.value, events ++ traced.events⟩

/-- The events up to the first one that meets the test, with that one. -/
def upToFirst (test : ε → Bool) : List ε → List ε
  | [] => []
  | event :: rest => if test event then [event] else event :: upToFirst test rest

/-- A computation that is broken off at the first event that meets the test: later events are not
reported, and the given value takes the place of the result. -/
def stopAt (test : ε → Bool) (broken : α) (traced : Traced ε α) : Traced ε α :=
  if traced.events.any test then ⟨broken, upToFirst test traced.events⟩ else traced

@[simp] theorem value_pure (a : α) : (pure a : Traced ε α).value = a := rfl

@[simp] theorem events_pure (a : α) : (pure a : Traced ε α).events = [] := rfl

@[simp] theorem value_map (f : α → β) (traced : Traced ε α) :
    (traced.map f).value = f traced.value := rfl

@[simp] theorem events_map (f : α → β) (traced : Traced ε α) :
    (traced.map f).events = traced.events := rfl

@[simp] theorem value_bind (traced : Traced ε α) (next : α → Traced ε β) :
    (traced.bind next).value = (next traced.value).value := rfl

@[simp] theorem events_bind (traced : Traced ε α) (next : α → Traced ε β) :
    (traced.bind next).events = traced.events ++ (next traced.value).events := rfl

@[simp] theorem value_after (event : ε) (traced : Traced ε α) :
    (traced.after event).value = traced.value := rfl

@[simp] theorem events_after (event : ε) (traced : Traced ε α) :
    (traced.after event).events = event :: traced.events := rfl

@[simp] theorem value_log (events : List ε) (traced : Traced ε α) :
    (traced.log events).value = traced.value := rfl

@[simp] theorem events_log (events : List ε) (traced : Traced ε α) :
    (traced.log events).events = events ++ traced.events := rfl

@[simp] theorem value_sequence (list : List (Traced ε α)) :
    (sequence list).value = list.map value := rfl

@[simp] theorem events_sequence (list : List (Traced ε α)) :
    (sequence list).events = list.flatMap events := rfl

@[simp] theorem pure_bind (a : α) (next : α → Traced ε β) : (pure a).bind next = next a := rfl

@[simp] theorem log_nil (traced : Traced ε α) : traced.log [] = traced := rfl

theorem log_pure (traced : Traced ε α) : (pure traced.value).log traced.events = traced := by
  simp [log, pure]

theorem log_log (earlier later : List ε) (traced : Traced ε α) :
    (traced.log later).log earlier = traced.log (earlier ++ later) := by
  simp [log]

theorem after_eq_log (event : ε) (traced : Traced ε α) :
    traced.after event = traced.log [event] := rfl

theorem map_log (f : α → β) (events : List ε) (traced : Traced ε α) :
    (traced.log events).map f = (traced.map f).log events := rfl

theorem bind_log (events : List ε) (traced : Traced ε α) (next : α → Traced ε β) :
    (traced.log events).bind next = (traced.bind next).log events := by
  simp [log, bind]

theorem sequence_cons (head : Traced ε α) (rest : List (Traced ε α)) :
    sequence (head :: rest) = head.bind fun a => (sequence rest).map (a :: ·) := by
  simp [sequence, bind, map]

theorem stopAt_eq_self {test : ε → Bool} {traced : Traced ε α}
    (untouched : traced.events.any test = false) (broken : α) :
    traced.stopAt test broken = traced := by
  simp [stopAt, untouched]

theorem upToFirst_append {test : ε → Bool} {before : List ε} {event : ε}
    (untouched : before.any test = false) (met : test event = true) (rest : List ε) :
    upToFirst test (before ++ event :: rest) = before ++ [event] := by
  induction before with
  | nil => simp [upToFirst, met]
  | cons head tail onTail =>
      simp only [List.any_cons, Bool.or_eq_false_iff] at untouched
      simp [upToFirst, untouched.1, onTail untouched.2]

/-- Events broken off at the first one that meets the test still hold it. -/
theorem any_upToFirst (test : ε → Bool) (events : List ε) :
    (upToFirst test events).any test = events.any test := by
  induction events with
  | nil => rfl
  | cons event rest onRest =>
      by_cases met : test event = true
      · simp [upToFirst, met]
      · simp [upToFirst, met, onRest]

/-- A computation that is broken off still reports the event. -/
theorem any_stopAt (test : ε → Bool) (broken : α) (traced : Traced ε α) :
    (traced.stopAt test broken).events.any test = traced.events.any test := by
  rw [stopAt]
  split
  · exact any_upToFirst test traced.events
  · rfl

/-- A computation was not broken off if it does not report the event. -/
theorem stopAt_eq_self_of_stopAt {test : ε → Bool} {broken : α} {traced : Traced ε α}
    (untouched : (traced.stopAt test broken).events.any test = false) :
    traced.stopAt test broken = traced := by
  rw [any_stopAt] at untouched
  exact stopAt_eq_self untouched broken

/-- Where a computation is broken off depends on nothing that comes after the event. -/
theorem stopAt_eq_of_events {test : ε → Bool} {traced : Traced ε α} {event : ε}
    (before rest : List ε) (events : traced.events = before ++ event :: rest)
    (untouched : before.any test = false) (met : test event = true) (broken : α) :
    traced.stopAt test broken = ⟨broken, before ++ [event]⟩ := by
  simp [stopAt, events, met, upToFirst_append untouched met]

end Traced

end Relational
