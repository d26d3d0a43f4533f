/-
Module: Relational.Stream.Force
Purpose: Applying continuations to streams and forcing suspensions under given rules.
Main exports: Rules, Stream.bindWith, Stream.bind, Stream.map, Suspension.force
-/
import Relational.Stream.Merge
import Relational.Traced

namespace Relational

/-- What tasks and continuations do.  Either may report events, and some events are fatal: whoever
consumes a stream stops at them. -/
structure Rules (ε ι κ α : Type) where
  run : ι → Traced ε (Stream ι κ α)
  apply : κ → α → Traced ε (Stream ι κ α)
  isFatal : ε → Bool

variable {ε ι κ α : Type}

namespace Stream

/-- Applies `f` to the mature elements in order, puts off the rest under the continuation's name,
and merges the results from the last to the first. -/
def bindWith (f : α → Traced ε (Stream ι κ α)) (continuation : κ) (s : Stream ι κ α) :
    Traced ε (Stream ι κ α) :=
  (Traced.sequence (s.mature.map f)).map fun streams =>
    streams.foldr merge
      (s.ending.elim .nil fun suspension => .delay (.bind suspension continuation))

/-- The merged results of a continuation for all elements of a stream. -/
def bind (rules : Rules ε ι κ α) (s : Stream ι κ α) (continuation : κ) :
    Traced ε (Stream ι κ α) :=
  s.bindWith (rules.apply continuation) continuation

/-- Applies a function to every element, now to the mature ones and later to the others.  The
elements stay of one kind; a map to another kind of elements is `Stream.mapTo`, whose tasks are the
suspensions of the stream. -/
def map (f : α → α) (s : Stream ι κ α) : Stream ι κ α :=
  prependAll (s.mature.map f) (s.ending.elim .nil fun suspension => .delay (.map f suspension))

@[simp] theorem value_bindWith_nil (f : α → Traced ε (Stream ι κ α)) (continuation : κ) :
    (bindWith f continuation .nil).value = .nil := rfl

@[simp] theorem value_bindWith_cons (f : α → Traced ε (Stream ι κ α)) (continuation : κ) (a : α)
    (rest : Stream ι κ α) :
    (bindWith f continuation (.cons a rest)).value =
      merge (f a).value (bindWith f continuation rest).value := by
  simp [bindWith, ending]

@[simp] theorem value_bindWith_delay (f : α → Traced ε (Stream ι κ α)) (continuation : κ)
    (suspension : Suspension ι κ α) :
    (bindWith f continuation (.delay suspension)).value =
      .delay (.bind suspension continuation) := rfl

theorem events_bindWith (f : α → Traced ε (Stream ι κ α)) (continuation : κ)
    (s : Stream ι κ α) :
    (bindWith f continuation s).events = s.mature.flatMap fun a => (f a).events := by
  simp [bindWith, List.flatMap_map]

/-- What a stream is bound to depends on its mature elements only. -/
theorem bindWith_congr {f g : α → Traced ε (Stream ι κ α)} {s : Stream ι κ α}
    (same : ∀ a ∈ s.mature, f a = g a) (continuation : κ) :
    bindWith f continuation s = bindWith g continuation s := by
  rw [bindWith, bindWith, List.map_congr_left same]

/-- What binding brings forward comes from one of the mature elements. -/
theorem exists_mem_mature_of_bindWith {f : α → Traced ε (Stream ι κ α)} {continuation : κ}
    {s : Stream ι κ α} {a : α} (member : a ∈ (bindWith f continuation s).value.mature) :
    ∃ b ∈ s.mature, a ∈ (f b).value.mature := by
  induction s using matureInduction with
  | onNil => simp at member
  | onDelay suspension => simp at member
  | onCons b rest onRest =>
      rw [value_bindWith_cons] at member
      rcases mem_mature_of_merge member with here | later
      · exact ⟨b, by simp, here⟩
      · obtain ⟨c, among, found⟩ := onRest later
        exact ⟨c, by simp [among], found⟩

@[simp] theorem map_nil (f : α → α) : map f (.nil : Stream ι κ α) = .nil := rfl

@[simp] theorem map_cons (f : α → α) (a : α) (rest : Stream ι κ α) :
    map f (.cons a rest) = .cons (f a) (map f rest) := by
  simp [map, ending]

@[simp] theorem map_delay (f : α → α) (suspension : Suspension ι κ α) :
    map f (.delay suspension) = .delay (.map f suspension) := rfl

end Stream

/-! ### Forcing

The operations that wait for a suspension's innermost task may be nested very deep.  Forcing runs
down to the task, keeps the operations on the way as a list, and then carries them out from the
innermost to the outermost. -/

/-- An operation that waits for a suspension to be forced. -/
inductive Waiting (ι κ α : Type) where
  | merge (other : Stream ι κ α)
  | bind (continuation : κ)
  | map (f : α → α)

namespace Waiting

/-- Carries out the operation on the forced stream. -/
def resume (rules : Rules ε ι κ α) (s : Stream ι κ α) :
    Waiting ι κ α → Traced ε (Stream ι κ α)
  | .merge other => .pure (other.merge s)
  | .bind continuation => s.bind rules continuation
  | .map f => .pure (s.map f)

/-- Carries out operations one after the other; `trace` holds the events so far, the latest
first. -/
def resumeAll (rules : Rules ε ι κ α) :
    List (Waiting ι κ α) → Stream ι κ α → List ε → Traced ε (Stream ι κ α)
  | [], s, trace => ⟨s, trace.reverse⟩
  | waiting :: rest, s, trace =>
    let next := waiting.resume rules s
    resumeAll rules rest next.value (next.events.reverse ++ trace)

theorem resumeAll_eq_log (rules : Rules ε ι κ α) (list : List (Waiting ι κ α))
    (s : Stream ι κ α) (trace : List ε) :
    resumeAll rules list s trace = (resumeAll rules list s []).log trace.reverse := by
  induction list generalizing s trace with
  | nil => simp [resumeAll, Traced.log]
  | cons waiting rest onRest =>
      rw [resumeAll, resumeAll, onRest, onRest _ (_ ++ [])]
      simp [Traced.log]

end Waiting

namespace Suspension

/-- Forces a suspension and carries out the operations that wait for it, the innermost first. -/
def forceFor (rules : Rules ε ι κ α) (waiting : List (Waiting ι κ α)) :
    Suspension ι κ α → Traced ε (Stream ι κ α)
  | .task i =>
    let start := rules.run i
    Waiting.resumeAll rules waiting start.value start.events.reverse
  | .merge other source => source.forceFor rules (.merge other :: waiting)
  | .bind source continuation => source.forceFor rules (.bind continuation :: waiting)
  | .map f source => source.forceFor rules (.map f :: waiting)

/-- Carries out the work that a suspension stands for, up to the next element, suspension or end
of a stream. -/
def force (rules : Rules ε ι κ α) (suspension : Suspension ι κ α) : Traced ε (Stream ι κ α) :=
  suspension.forceFor rules []

theorem forceFor_eq_bind (rules : Rules ε ι κ α) (waiting : List (Waiting ι κ α)) :
    ∀ suspension : Suspension ι κ α,
      suspension.forceFor rules waiting =
        (suspension.force rules).bind fun s => Waiting.resumeAll rules waiting s []
  | .task i => by
      rw [forceFor, Waiting.resumeAll_eq_log]
      simp [force, forceFor, Waiting.resumeAll, Traced.bind, Traced.log]
  | .merge other source => by
      rw [force, forceFor, forceFor, forceFor_eq_bind rules _ source,
        forceFor_eq_bind rules [_] source]
      simp [Waiting.resumeAll, Waiting.resume, Traced.bind, Traced.pure]
  | .bind source continuation => by
      rw [force, forceFor, forceFor, forceFor_eq_bind rules _ source,
        forceFor_eq_bind rules [_] source]
      simp only [Traced.bind, Waiting.resumeAll, Waiting.resume]
      rw [Waiting.resumeAll_eq_log]
      simp [Traced.log]
  | .map f source => by
      rw [force, forceFor, forceFor, forceFor_eq_bind rules _ source,
        forceFor_eq_bind rules [_] source]
      simp [Waiting.resumeAll, Waiting.resume, Traced.bind, Traced.pure]

@[simp] theorem force_task (rules : Rules ε ι κ α) (i : ι) :
    (task i : Suspension ι κ α).force rules = rules.run i := by
  simp [force, forceFor, Waiting.resumeAll]

@[simp] theorem force_merge (rules : Rules ε ι κ α) (other : Stream ι κ α)
    (source : Suspension ι κ α) :
    (merge other source).force rules = (source.force rules).map other.merge := by
  rw [force, forceFor, forceFor_eq_bind]
  simp [Waiting.resumeAll, Waiting.resume, Traced.bind, Traced.map, Traced.pure]

@[simp] theorem force_bind (rules : Rules ε ι κ α) (source : Suspension ι κ α)
    (continuation : κ) :
    (bind source continuation).force rules =
      (source.force rules).bind fun s => s.bind rules continuation := by
  rw [force, forceFor, forceFor_eq_bind]
  simp [Waiting.resumeAll, Waiting.resume, Traced.bind]

@[simp] theorem force_map (rules : Rules ε ι κ α) (f : α → α) (source : Suspension ι κ α) :
    (map f source).force rules = (source.force rules).map (Stream.map f) := by
  rw [force, forceFor, forceFor_eq_bind]
  simp [Waiting.resumeAll, Waiting.resume, Traced.bind, Traced.map, Traced.pure]

end Suspension

end Relational
