/-
Module: Relational.Proofs.Threads
Purpose: The single paths of a search, and that a search does nothing but what
  one of its paths does.
Main exports: Thread, Thread.Step, Thread.Runs, Thread.Reports,
  Stream.Tracks, Plan.search_tracks, Suspension.force_tracks,
  Stream.Tracks.sight, Stream.Tracks.reports
-/
import Relational.Proofs.Supply

namespace Relational

/-!
A search follows many paths at once.  On each of them there is a branch and
there are plans that the branch still has to meet; the first of them is taken up
next.  A disjunction leaves the choice of a side, so a path is one of several
that begin alike.

How the paths are interleaved is said by the streams.  What is put off is kept
there as data: a task holds a branch and a body, and the plan that waits for the
elements of a suspension is still to be met by them.  So each stream says of
every path how far it has come, and forcing a stream moves some of its paths on.
-/

/-- A branch, and the plans that it still has to meet, the next one first. -/
structure Thread where
  branch : Branch
  pending : List Plan

namespace Thread

/-- One step of a path, and the variable that is handed out in it, if one is. -/
inductive Step (program : Program) : Thread → Option Var → Thread → Prop where
  | succeed {b : Branch} {pending : List Plan} :
      Step program ⟨b, .succeed :: pending⟩ none ⟨b, pending⟩
  | eq {b : Branch} {pending : List Plan} {left right : Term}
      {substitution : Substitution}
      (unified : b.state.substitution.unify left right = .ok substitution) :
      Step program ⟨b, .eq left right :: pending⟩ none
        ⟨b.withState (b.state.withSubstitution substitution), pending⟩
  | disjLeft {b : Branch} {pending : List Plan} {left right : Plan} :
      Step program ⟨b, .disj left right :: pending⟩ none
        ⟨b.choose 0, left :: pending⟩
  | disjRight {b : Branch} {pending : List Plan} {left right : Plan} :
      Step program ⟨b, .disj left right :: pending⟩ none
        ⟨b.choose 1, right :: pending⟩
  | conj {b : Branch} {pending : List Plan} {first second : Plan} :
      Step program ⟨b, .conj first second :: pending⟩ none
        ⟨b, first :: second :: pending⟩
  | fresh {b : Branch} {pending : List Plan} {name : String} {body : Closure}
      {x : Var} {s : State} (introduced : b.state.fresh? = some (x, s)) :
      Step program ⟨b, .fresh name body :: pending⟩ (some x)
        ⟨b.withState s,
          (body.withVar name x b.choices).build program :: pending⟩
  | suspend {b : Branch} {pending : List Plan} {body : Closure} :
      Step program ⟨b, .suspend body :: pending⟩ none
        ⟨b, (body.onBranch b.choices).build program :: pending⟩
  | times {b : Branch} {pending : List Plan} {count index : Nat}
      (within : index < count) :
      Step program ⟨b, .times count :: pending⟩ none ⟨b.choose index, pending⟩

/-- Any number of steps of a path, and the variables that are handed out in
them, in order. -/
inductive Runs (program : Program) (start : Thread) :
    List Var → Thread → Prop where
  | refl : Runs program start [] start
  | tail {handed : List Var} {t t' : Thread} {next : Option Var}
      (before : Runs program start handed t) (step : Step program t next t') :
      Runs program start (handed ++ next.toList) t'

/-- What a path reports as its first plan is taken up. -/
inductive Reports : Thread → Event → Prop where
  | introduced {b : Branch} {pending : List Plan} {name : String}
      {body : Closure} {x : Var} {s : State}
      (handedOut : b.state.fresh? = some (x, s)) :
      Reports ⟨b, .fresh name body :: pending⟩ (.introduced x)
  | outOfVariables {b : Branch} {pending : List Plan} {name : String}
      {body : Closure} (used : b.state.fresh? = none) :
      Reports ⟨b, .fresh name body :: pending⟩ .outOfVariables
  | failed {b : Branch} {pending : List Plan} {left right : Term}
      {failure : Failure}
      (apart : b.state.substitution.unify left right = .error failure) :
      Reports ⟨b, .eq left right :: pending⟩ (.failed failure)

/-- The path leads through the thread. -/
def Reaches (program : Program) (start t : Thread) : Prop :=
  ∃ handed, Runs program start handed t

theorem Reaches.step {program : Program} {start t t' : Thread}
    {next : Option Var} (reaches : start.Reaches program t)
    (step : Step program t next t') : start.Reaches program t' := by
  rcases reaches with ⟨handed, runs⟩
  exact ⟨_, runs.tail step⟩

end Thread

/-! ### Streams that follow paths -/

mutual

/-- All that the stream holds lies on paths from the start.  Its elements have
the pending plans still to meet. -/
def Stream.Tracks (program : Program) (start : Thread) :
    List Plan → Search → Prop
  | _, .nil => True
  | pending, .cons b rest =>
    start.Reaches program ⟨b, pending⟩ ∧ rest.Tracks program start pending
  | pending, .delay suspension => suspension.Tracks program start pending

/-- All that the suspension holds lies on paths from the start.  No search
applies a function to its branches. -/
def Suspension.Tracks (program : Program) (start : Thread) :
    List Plan → Suspension Task Plan Branch → Prop
  | pending, .task postponed =>
    start.Reaches program
      ⟨postponed.branch, postponed.body.build program :: pending⟩
  | pending, .merge other source =>
    other.Tracks program start pending ∧ source.Tracks program start pending
  | pending, .bind source plan => source.Tracks program start (plan :: pending)
  | _, .map _ _ => False

end

/-- The result lies on paths from the start, and so does every report on the way
to it. -/
structure Traced.Tracks (program : Program) (start : Thread)
    (pending : List Plan) (traced : Traced Event Search) : Prop where
  value : traced.value.Tracks program start pending
  events : ∀ event ∈ traced.events,
    ∃ t, start.Reaches program t ∧ t.Reports event

variable {program : Program} {start : Thread} {pending : List Plan}

namespace Stream.Tracks

theorem mature {s : Search} (tracks : s.Tracks program start pending) :
    ∀ b ∈ s.mature, start.Reaches program ⟨b, pending⟩ := by
  induction s using matureInduction with
  | onNil => simp
  | onDelay suspension => simp
  | onCons a rest onRest =>
      rw [Stream.Tracks] at tracks
      intro b member
      rw [mature_cons] at member
      rcases List.mem_cons.1 member with rfl | later
      · exact tracks.1
      · exact onRest tracks.2 b later

theorem ofList {items : List Branch}
    (each : ∀ b ∈ items, start.Reaches program ⟨b, pending⟩) :
    (Stream.ofList items : Search).Tracks program start pending := by
  induction items with
  | nil => exact trivial
  | cons b items onItems =>
      exact ⟨each b (List.mem_cons_self ..),
        onItems fun c member => each c (List.mem_cons_of_mem b member)⟩

theorem merge {left right : Search}
    (onLeft : left.Tracks program start pending)
    (onRight : right.Tracks program start pending) :
    (left.merge right).Tracks program start pending := by
  match left with
  | .nil => exact onRight
  | .delay suspension => exact ⟨onRight, onLeft⟩
  | .cons b left =>
      rw [merge_cons]
      exact ⟨onLeft.1, merge onRight onLeft.2⟩
termination_by left.mature.length + right.mature.length

/-- The elements of a stream meet the first of their pending plans when it is
bound to them. -/
theorem bindWith {s : Search} {plan : Plan}
    (tracks : s.Tracks program start (plan :: pending))
    {f : Branch → Traced Event Search}
    (each : ∀ b ∈ s.mature, (f b).Tracks program start pending) :
    (s.bindWith f plan).Tracks program start pending := by
  constructor
  · induction s using matureInduction with
    | onNil => exact trivial
    | onDelay suspension => exact tracks
    | onCons b rest onRest =>
        rw [value_bindWith_cons]
        refine (each b (by simp)).value.merge (onRest tracks.2 ?_)
        intro c member
        exact each c (by simp [member])
  · intro event member
    rw [events_bindWith, List.mem_flatMap] at member
    rcases member with ⟨b, among, reported⟩
    exact (each b among).events event reported

end Stream.Tracks

/-! ### Searches follow paths -/

namespace Traced.Tracks

/-- Nothing is reported on the way to what is there at once. -/
theorem pure {s : Search} (tracks : s.Tracks program start pending) :
    (Traced.pure s).Tracks program start pending :=
  ⟨tracks, by simp⟩

theorem after {traced : Traced Event Search} {event : Event} {t : Thread}
    (tracks : traced.Tracks program start pending)
    (reaches : start.Reaches program t) (reports : t.Reports event) :
    (traced.after event).Tracks program start pending := by
  refine ⟨tracks.value, ?_⟩
  intro other member
  rcases List.mem_cons.1 member with rfl | later
  · exact ⟨t, reaches, reports⟩
  · exact tracks.events other later

theorem bind {traced : Traced Event Search} {waiting : List Plan}
    {next : Search → Traced Event Search}
    (tracks : traced.Tracks program start waiting)
    (andThen : traced.value.Tracks program start waiting →
      (next traced.value).Tracks program start pending) :
    (traced.bind next).Tracks program start pending := by
  have later := andThen tracks.value
  refine ⟨later.value, ?_⟩
  intro event member
  rw [events_bind] at member
  rcases List.mem_append.1 member with before | after
  · exact tracks.events event before
  · exact later.events event after

theorem merge {traced : Traced Event Search} {found : Search}
    (onFound : found.Tracks program start pending)
    (tracks : traced.Tracks program start pending) :
    (traced.map found.merge).Tracks program start pending :=
  ⟨onFound.merge tracks.value, tracks.events⟩

/-- Breaking off a computation takes nothing from a path that it does not
have. -/
theorem stopAt {traced : Traced Event Search} (test : Event → Bool)
    (tracks : traced.Tracks program start pending) :
    (traced.stopAt test .nil).Tracks program start pending := by
  have kept : ∀ events : List Event, ∀ event ∈ upToFirst test events,
      event ∈ events := by
    intro events event member
    induction events with
    | nil => exact member
    | cons head tail onTail =>
        rw [upToFirst] at member
        split at member
        · exact List.mem_cons.2 (Or.inl (List.mem_singleton.1 member))
        · rcases List.mem_cons.1 member with rfl | later
          · exact List.mem_cons_self ..
          · exact List.mem_cons_of_mem _ (onTail later)
  rw [Traced.stopAt]
  split
  · exact ⟨trivial, fun event member =>
      tracks.events event (kept _ event member)⟩
  · exact tracks

end Traced.Tracks

theorem Branch.equate_tracks {left right : Term} {b : Branch}
    (reaches : start.Reaches program ⟨b, .eq left right :: pending⟩) :
    (b.equate left right).Tracks program start pending := by
  rw [Branch.equate]
  split
  · rename_i substitution unified
    exact .pure ⟨reaches.step (.eq unified), trivial⟩
  · rename_i failure apart
    exact .after (.pure trivial) reaches (.failed apart)

namespace Plan

/-- A branch that is brought forward has no fewer variables behind it. -/
theorem onward_search (program : Program) (plan : Plan) :
    Onward (plan.search program) :=
  fun b => onward_searchWithin program _ plan b

/-- The search of a plan follows the paths that begin with it. -/
theorem search_tracks (left : Nat) (plan : Plan) {b : Branch}
    (supply : Var.capacity - b.state.counter ≤ left) {pending : List Plan}
    (reaches : start.Reaches program ⟨b, plan :: pending⟩) :
    (plan.search program b).Tracks program start pending := by
  -- The induction is on the variables left, as the body of a new variable is
  -- no part of the plan, and then on the plan.
  induction left using Nat.strongRecOn generalizing plan b pending with
  | ind left onFewer =>
  induction plan generalizing b pending with
  | succeed =>
      rw [search_succeed]
      exact .pure ⟨reaches.step .succeed, trivial⟩
  | fail =>
      rw [search_fail]
      exact .pure trivial
  | eq first second =>
      rw [search_eq]
      exact Branch.equate_tracks reaches
  | disj first second onFirst onSecond =>
      rw [search_disj]
      have ofFirst := onFirst (b := b.choose 0) supply (reaches.step .disjLeft)
      have ofSecond := onSecond (b := b.choose 1) supply
        (reaches.step .disjRight)
      exact ofFirst.bind fun found => .merge found ofSecond
  | conj first second onFirst onSecond =>
      rw [search_conj]
      have ofFirst := onFirst supply (reaches.step .conj)
      refine ofFirst.bind fun found => found.bindWith ?_
      intro between member
      have advanced := onward_search program first b between member
      exact onSecond (Nat.le_trans (Nat.sub_le_sub_left advanced _) supply)
        (found.mature between member)
  | fresh name body =>
      cases introduced : b.state.fresh? with
      | none =>
          rw [search_fresh_of_none program b name body introduced]
          exact .after (.pure trivial) reaches (.outOfVariables introduced)
      | some pair =>
          rcases pair with ⟨x, s⟩
          rw [search_fresh program b name body introduced]
          have fewer : Var.capacity - s.counter < left := by
            obtain ⟨advanced, inRange⟩ := counter_of_fresh? introduced
            omega
          have inside := onFewer _ fewer
            ((body.withVar name x b.choices).build program)
            (b := b.withState s) (Nat.le_refl _)
            (reaches.step (.fresh introduced))
          exact .after inside reaches (.introduced introduced)
  | suspend body =>
      rw [search_suspend]
      exact .pure (reaches.step .suspend)
  | times count =>
      rw [search_times]
      refine .pure (.ofList ?_)
      intro c member
      obtain ⟨index, within, rfl⟩ := List.mem_map.1 member
      exact reaches.step (.times (List.mem_range.1 within))

theorem apply_tracks {plan : Plan} {b : Branch}
    (reaches : start.Reaches program ⟨b, plan :: pending⟩) :
    (plan.apply program b).Tracks program start pending := by
  rw [apply_eq_stopAt]
  exact (search_tracks _ plan (Nat.le_refl _) reaches).stopAt _

end Plan

/-! ### Forcing -/

/-- Forcing a suspension moves its paths on. -/
theorem Suspension.force_tracks :
    ∀ (suspension : Suspension Task Plan Branch) (pending : List Plan),
      suspension.Tracks program start pending →
        (suspension.force program.rules).Tracks program start pending
  | .task postponed, pending, tracks => by
      rw [force_task]
      exact Plan.apply_tracks tracks
  | .merge other source, pending, tracks => by
      rw [force_merge]
      exact .merge tracks.1 (force_tracks source pending tracks.2)
  | .bind source plan, pending, tracks => by
      rw [force_bind]
      refine (force_tracks source (plan :: pending) tracks).bind fun found =>
        found.bindWith ?_
      intro b member
      exact Plan.apply_tracks (found.mature b member)
  | .map _ _, _, tracks => tracks.elim

namespace Stream.Tracks

theorem next {s rest : Search} {seen : Sight Branch}
    (tracks : s.Tracks program start pending)
    (step : s.next program.rules = some (seen, rest)) :
    rest.Tracks program start pending ∧
      ∀ b, seen = .yield b → start.Reaches program ⟨b, pending⟩ := by
  cases s with
  | nil => cases step
  | cons b rest =>
      obtain ⟨rfl, rfl⟩ := Prod.mk.inj (Option.some.inj step)
      refine ⟨tracks.2, ?_⟩
      rintro c same
      obtain rfl := Sight.yield.inj same
      exact tracks.1
  | delay suspension =>
      obtain ⟨rfl, rfl⟩ := Prod.mk.inj (Option.some.inj step)
      exact ⟨(suspension.force_tracks pending tracks).value,
        fun _ same => by cases same⟩

/-- Every element that is seen lies on a path. -/
theorem sight {s : Search} (tracks : s.Tracks program start pending) {n : Nat}
    {b : Branch} (shown : s.sight program.rules n = some (.yield b)) :
    start.Reaches program ⟨b, pending⟩ := by
  induction n generalizing s with
  | zero =>
      obtain ⟨seen, rest, step⟩ := exists_next_of_sight shown
      rw [sight_zero_of_next step] at shown
      exact (tracks.next step).2 b (Option.some.inj shown)
  | succ n earlier =>
      obtain ⟨seen, rest, step⟩ := exists_next_of_sight shown
      rw [sight_succ_of_next step] at shown
      exact earlier (tracks.next step).1 shown

/-- Every event that is reported as a stream is forced is reported on a
path. -/
theorem reports {s : Search} (tracks : s.Tracks program start pending) {n : Nat}
    {event : Event} (reported : event ∈ s.reports program.rules n) :
    ∃ t, start.Reaches program t ∧ t.Reports event := by
  induction n generalizing s with
  | zero => cases s <;> cases reported
  | succ n earlier =>
      cases s with
      | nil => cases reported
      | cons b rest => exact earlier tracks.2 reported
      | delay suspension =>
          have forced := suspension.force_tracks pending tracks
          rcases List.mem_append.1 reported with atOnce | later
          · exact forced.events event atOnce
          · exact earlier forced.value later

end Stream.Tracks

end Relational
