/-
Module: Relational.Goal.Machine
Purpose: A loop that carries out the search a plan describes, however deep it goes.
Main exports: Machine.Frame, Machine.step, Machine.run, Plan.apply, Plan.apply_eq_search
-/
import Relational.Goal.Search

namespace Relational

/-!
Applying a plan goes down into its parts and into the bodies of new variables, and a relation that
calls itself behind a new variable may go down very deep.  The machine does this in a loop.  It
keeps what is left to do as a stack of frames, and it breaks off as soon as there is no variable
left to hand out.

Every configuration of the machine has a meaning: the search that results from carrying out its
frames on what it is working on.  No step changes the meaning, so the machine arrives at the search
that the plan describes.
-/

namespace Machine

/-- What is left to do with a search once it is known. -/
inductive Frame where
  /-- Merge it with the search of the other side of a disjunction, which is still to be found. -/
  | otherSide (plan : Plan) (b : Branch)
  /-- Merge the search of the first side of a disjunction with it. -/
  | mergeInto (found : Search)
  /-- Apply the second plan of a conjunction to its branches. -/
  | second (plan : Plan)
  /-- Add it to the searches of the second plan, which is still to be applied to the branches that
  wait, and merge them all in front of the rest.  The searches found are kept latest first. -/
  | collect (plan : Plan) (waiting : List Branch) (found : List Search) (rest : Search)

/-- What the machine is working on. -/
inductive Focus where
  /-- A plan still to be applied. -/
  | apply (plan : Plan) (b : Branch)
  /-- A search for the topmost frame. -/
  | done (search : Search)

/-- The outcome of one step. -/
inductive Step where
  /-- There is nothing left to do. -/
  | finished (search : Search)
  /-- There is no variable left to hand out. -/
  | outOfVariables
  /-- Another configuration, reached with some events. -/
  | next (focus : Focus) (stack : List Frame) (events : List Event)

/-- Searches, the latest first, merged in front of the rest. -/
def mergeFound (found : List Search) (rest : Search) : Search :=
  found.foldl (fun rest search => search.merge rest) rest

/-- Hands a search to the topmost frame. -/
def stepDone (search : Search) : List Frame → Step
  | [] => .finished search
  | .otherSide plan b :: stack => .next (.apply plan b) (.mergeInto search :: stack) []
  | .mergeInto found :: stack => .next (.done (found.merge search)) stack []
  | .second plan :: stack =>
    let rest := search.ending.elim .nil fun suspension => .delay (.bind suspension plan)
    match search.mature with
    | [] => .next (.done rest) stack []
    | b :: waiting => .next (.apply plan b) (.collect plan waiting [] rest :: stack) []
  | .collect _ [] found rest :: stack =>
    .next (.done (mergeFound found (search.merge rest))) stack []
  | .collect plan (b :: waiting) found rest :: stack =>
    .next (.apply plan b) (.collect plan waiting (search :: found) rest :: stack) []

/-- Goes one step into a plan. -/
def stepApply (program : Program) (b : Branch) (stack : List Frame) : Plan → Step
  | .succeed => .next (.done (.singleton b)) stack []
  | .fail => .next (.done .nil) stack []
  | .eq left right =>
    let traced := b.equate left right
    .next (.done traced.value) stack traced.events
  | .disj left right => .next (.apply left (b.choose 0)) (.otherSide right (b.choose 1) :: stack) []
  | .conj first second => .next (.apply first b) (.second second :: stack) []
  | .fresh name body =>
    match b.state.fresh? with
    | some (x, s) =>
      .next (.apply ((body.withVar name x b.choices).build program) (b.withState s)) stack
        [.introduced x]
    | none => .outOfVariables
  | .suspend body => .next (.done (.delay (.task ⟨body.onBranch b.choices, b⟩))) stack []
  | .times count => .next (.done (.ofList ((List.range count).map b.choose))) stack []

/-- One step. -/
def step (program : Program) (stack : List Frame) : Focus → Step
  | .apply plan b => stepApply program b stack plan
  | .done search => stepDone search stack

/-- Carries on for a number of steps.  `trace` holds the events so far, the latest first. -/
def run (program : Program) :
    Nat → Focus → List Frame → List Event → Option (Traced Event Search)
  | 0, _, _, _ => none
  | steps + 1, focus, stack, trace =>
    match step program stack focus with
    | .finished search => some ⟨search, trace.reverse⟩
    | .outOfVariables => some ⟨.nil, (Event.outOfVariables :: trace).reverse⟩
    | .next focus stack events => run program steps focus stack (events.reverse ++ trace)

/-! ### What a configuration means -/

/-- The search that a frame makes of the search it waits for. -/
def Frame.meaning (program : Program) (traced : Traced Event Search) :
    Frame → Traced Event Search
  | .otherSide plan b =>
    traced.bind fun found => (plan.search program b).map found.merge
  | .mergeInto found => traced.map found.merge
  | .second plan => traced.bind fun found => found.bindWith (plan.search program) plan
  | .collect plan waiting found rest =>
    traced.bind fun search =>
      (Traced.sequence (waiting.map (plan.search program))).map fun searches =>
        mergeFound found (search.merge (searches.foldr Stream.merge rest))

/-- The search that the frames of a stack make of a search, the topmost frame first. -/
def plug (program : Program) (stack : List Frame) (traced : Traced Event Search) :
    Traced Event Search :=
  stack.foldl (Frame.meaning program) traced

/-- The search that the machine is working on. -/
def Focus.meaning (program : Program) : Focus → Traced Event Search
  | .apply plan b => plan.search program b
  | .done search => .pure search

@[simp] theorem plug_cons (program : Program) (frame : Frame) (stack : List Frame)
    (traced : Traced Event Search) :
    plug program (frame :: stack) traced = plug program stack (frame.meaning program traced) :=
  rfl

theorem Frame.meaning_log (program : Program) (events : List Event)
    (traced : Traced Event Search) (frame : Frame) :
    frame.meaning program (traced.log events) = (frame.meaning program traced).log events := by
  cases frame <;> simp [Frame.meaning, Traced.bind_log, Traced.map_log]

theorem plug_log (program : Program) (stack : List Frame) (events : List Event)
    (traced : Traced Event Search) :
    plug program stack (traced.log events) = (plug program stack traced).log events := by
  induction stack generalizing traced with
  | nil => rfl
  | cons frame stack onStack => simp [Frame.meaning_log, onStack]

/-- What the outcome of a step says about the search that was meant before it. -/
def Step.Explains (program : Program) (meant : Traced Event Search) : Step → Prop
  | .finished search => meant = .pure search
  | .outOfVariables => ∃ rest, meant.events = .outOfVariables :: rest
  | .next focus stack events =>
    meant = (plug program stack (focus.meaning program)).log events ∧
      events.any Event.isFatal = false

theorem stepDone_explains (program : Program) (search : Search) (stack : List Frame) :
    (stepDone search stack).Explains program (plug program stack (.pure search)) := by
  match stack with
  | [] => rfl
  | .otherSide plan b :: stack => exact ⟨rfl, rfl⟩
  | .mergeInto found :: stack => exact ⟨rfl, rfl⟩
  | .second plan :: stack =>
      rw [stepDone]
      split
      · rename_i mature
        refine ⟨?_, rfl⟩
        simp [Frame.meaning, Focus.meaning, Stream.bindWith, mature]
        rfl
      · rename_i b waiting mature
        refine ⟨?_, rfl⟩
        simp [Frame.meaning, Focus.meaning, Stream.bindWith, mature, Traced.sequence_cons,
          Traced.bind, Traced.map, Traced.log, mergeFound]
  | .collect plan [] found rest :: stack =>
      refine ⟨?_, rfl⟩
      simp [Frame.meaning, Focus.meaning]
      rfl
  | .collect plan (b :: waiting) found rest :: stack =>
      refine ⟨?_, rfl⟩
      simp [Frame.meaning, Focus.meaning, Traced.sequence_cons, Traced.bind, Traced.map, Traced.log,
        mergeFound]

theorem equate_calm (left right : Term) (b : Branch) :
    (b.equate left right).events.any Event.isFatal = false := by
  rw [Branch.equate]
  split <;> rfl

theorem stepApply_explains (program : Program) (plan : Plan) (b : Branch) (stack : List Frame) :
    (stepApply program b stack plan).Explains program
      (plug program stack (plan.search program b)) := by
  cases plan with
  | succeed => exact ⟨by rw [Plan.search_succeed]; rfl, rfl⟩
  | fail => exact ⟨by rw [Plan.search_fail]; rfl, rfl⟩
  | eq left right =>
      refine ⟨?_, equate_calm _ _ _⟩
      rw [Plan.search_eq, ← plug_log, Focus.meaning, Traced.log_pure]
  | disj left right => exact ⟨by rw [Plan.search_disj]; rfl, rfl⟩
  | conj first second => exact ⟨by rw [Plan.search_conj]; rfl, rfl⟩
  | fresh name body =>
      rw [stepApply]
      split
      · rename_i x s introduced
        refine ⟨?_, rfl⟩
        rw [Plan.search_fresh program b name body introduced, Traced.after_eq_log, plug_log]
        rfl
      · rename_i used
        refine ⟨(plug program stack (.pure .nil)).events, ?_⟩
        rw [Plan.search_fresh_of_none program b name body used, Traced.after_eq_log, plug_log]
        rfl
  | suspend body => exact ⟨by rw [Plan.search_suspend]; rfl, rfl⟩
  | times count => exact ⟨by rw [Plan.search_times]; rfl, rfl⟩

theorem step_explains (program : Program) (stack : List Frame) (focus : Focus) :
    (step program stack focus).Explains program (plug program stack (focus.meaning program)) := by
  cases focus with
  | apply plan b => exact stepApply_explains program plan b stack
  | done search => exact stepDone_explains program search stack

/-- A machine that comes to an end has found what its configuration means, up to the moment where
the variables run out. -/
theorem run_eq_some {program : Program} {steps : Nat} {focus : Focus} {stack : List Frame}
    {trace : List Event} {result : Traced Event Search}
    (calm : trace.any Event.isFatal = false)
    (finished : run program steps focus stack trace = some result) :
    result =
      ((plug program stack (focus.meaning program)).log trace.reverse).stopAt Event.isFatal
        .nil := by
  induction steps generalizing focus stack trace with
  | zero => simp [run] at finished
  | succ steps hypothesis =>
      have explained := step_explains program stack focus
      rw [run] at finished
      split at finished
      · rename_i search outcome
        rw [outcome] at explained
        simp only [Step.Explains] at explained
        rw [explained, Traced.stopAt_eq_self (by simpa [Traced.log] using calm)]
        simpa [Traced.log, Traced.pure] using finished.symm
      · rename_i outcome
        rw [outcome] at explained
        obtain ⟨rest, events⟩ := explained
        rw [Traced.stopAt_eq_of_events trace.reverse rest
          (congrArg (trace.reverse ++ ·) events) (by simpa using calm) rfl]
        simpa using finished.symm
      · rename_i focus' stack' events outcome
        rw [outcome] at explained
        obtain ⟨meant, quiet⟩ := explained
        rw [hypothesis (by simp [quiet, calm]) finished, meant, Traced.log_log]
        simp

/-- More steps than any search takes. -/
def patience : Nat := 0x3fffffffffffffff

end Machine

namespace Plan

/-- The search that a plan describes from a branch, broken off where the variables run
out. -/
def apply (program : Program) (plan : Plan) (b : Branch) : Traced Event Search :=
  match Machine.run program Machine.patience (.apply plan b) [] [] with
  | some traced => traced
  | none => (plan.search program b).stopAt Event.isFatal .nil

theorem apply_eq_stopAt (program : Program) (plan : Plan) (b : Branch) :
    plan.apply program b = (plan.search program b).stopAt Event.isFatal .nil := by
  rw [apply]
  split
  · rename_i traced finished
    exact Machine.run_eq_some (by rfl) finished
  · rfl

/-- As long as there are variables, applying a plan gives the search that it describes. -/
theorem apply_eq_search {program : Program} {plan : Plan} {b : Branch}
    (supplied : (plan.search program b).events.any Event.isFatal = false) :
    plan.apply program b = plan.search program b := by
  rw [apply_eq_stopAt, Traced.stopAt_eq_self supplied]

end Plan

end Relational
