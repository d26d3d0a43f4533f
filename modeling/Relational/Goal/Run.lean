/-
Module: Relational.Goal.Run
Purpose: Taking answers from the search of a plan.
Main exports: Program.rules, Program.collect, Program.run, Program.run_eq_outcome
-/
import Relational.Goal.Machine
import Relational.Stream.Consume

namespace Relational.Program

/-- Resuming a task builds its body and applies it to the branch; a plan goes on as it is. -/
def rules (program : Program) : Rules Event Task Plan Branch where
  run task := (task.body.build program).apply program task.branch
  apply plan b := plan.apply program b
  isFatal := Event.isFatal

/-- The event that reports a finished harvest. -/
def closing (demand : Demand) (harvest : Harvest State) : Event :=
  match demand with
  | .upTo count => .took count harvest.items.length harvest.forced
  | .all => .tookAll harvest.items.length harvest.forced

/-- Takes the states of the first branches from a search. -/
def states (program : Program) (fuel : Nat) (demand : Demand) (search : Search) :
    Traced Event (Harvest State) :=
  (search.collect program.rules fuel demand).map (·.map Branch.state)

/-- Takes states from a search and reports it, unless the search had to be stopped. -/
def collect (program : Program) (fuel : Nat) (demand : Demand) (search : Search) :
    Traced Event (Harvest State) :=
  let traced := program.states fuel demand search
  match traced.value.ending with
  | .stopped => traced
  | _ => ⟨traced.value, traced.events ++ [closing demand traced.value]⟩

/-- Applies a plan to a state and takes states from its search. -/
def run (program : Program) (fuel : Nat) (demand : Demand) (plan : Plan) (s : State) :
    Traced Event (Harvest State) :=
  let search := plan.apply program (.root s)
  if search.events.any Event.isFatal then search.map fun _ => ⟨[], 0, .stopped⟩
  else search.bind (program.collect fuel demand)

/-- The outcome of a run that is not stopped, given its search and what was collected from it: the
events of both come in front of the event that reports the end. -/
def outcome (demand : Demand) (search : Traced Event Search)
    (taken : Traced Event (Harvest Branch)) : Traced Event (Harvest State) :=
  let harvest := taken.value.map Branch.state
  ⟨harvest, search.events ++ (taken.events ++ [closing demand harvest])⟩

/-- A run is not stopped if neither the beginning of its search nor the collection is. -/
theorem run_eq_outcome {program : Program} {fuel : Nat} {demand : Demand} {plan : Plan} {s : State}
    (calm : (plan.apply program (.root s)).events.any Event.isFatal = false)
    (running : ((plan.apply program (.root s)).value.collect program.rules fuel
      demand).value.ending ≠ .stopped) :
    program.run fuel demand plan s =
      outcome demand (plan.apply program (.root s))
        ((plan.apply program (.root s)).value.collect program.rules fuel demand) := by
  rw [run, if_neg (by simp [calm]), Traced.bind, collect]
  split
  · rename_i stopped
    exact absurd stopped running
  · rfl

/-- A stop at the beginning of the search or in the collection stops the run. -/
theorem running_of_run {program : Program} {fuel : Nat} {demand : Demand} {plan : Plan} {s : State}
    (running : (program.run fuel demand plan s).value.ending ≠ .stopped) :
    (plan.apply program (.root s)).events.any Event.isFatal = false ∧
      ((plan.apply program (.root s)).value.collect program.rules fuel
        demand).value.ending ≠ .stopped := by
  rw [run] at running
  by_cases fatal : (plan.apply program (.root s)).events.any Event.isFatal = true
  · exact absurd (by rw [if_pos fatal]; rfl) running
  · refine ⟨Bool.not_eq_true _ ▸ fatal, ?_⟩
    intro stopped
    rw [if_neg fatal, Traced.value_bind, collect] at running
    split at running
    · exact running stopped
    · exact running stopped

end Relational.Program
