import Relational.Branch
import Relational.Decimal.Layout
import Relational.Decimal.Shortest
import Relational.Expectation
import Relational.Expr
import Relational.Goal.Basic
import Relational.Goal.Machine
import Relational.Goal.Plan
import Relational.Goal.Run
import Relational.Goal.Search
import Relational.Join
import Relational.Place
import Relational.Query
import Relational.Series
import Relational.State
import Relational.Stream.Basic
import Relational.Stream.Consume
import Relational.Stream.Force
import Relational.Stream.Merge
import Relational.Stream.Text
import Relational.Substitution.Basic
import Relational.Substitution.Reify
import Relational.Substitution.Text
import Relational.Substitution.Unify
import Relational.Term.Basic
import Relational.Term.Text
import Relational.Text.Extending
import Relational.Text.Printable
import Relational.Text.Quoted
import Relational.Traced
import Relational.Value
import Relational.Var
import Relational.Proofs.Bindings
import Relational.Proofs.Unification
import Relational.Proofs.Similarity
import Relational.Proofs.Unfolding
import Relational.Proofs.Adequacy
import Relational.Proofs.Growth
import Relational.Proofs.Termination
import Relational.Proofs.OccursCheck
import Relational.Proofs.Renaming
import Relational.Proofs.EquationOrder
import Relational.Proofs.Paths
import Relational.Proofs.Commutation
import Relational.Proofs.Alike
import Relational.Proofs.Indifference
import Relational.Proofs.Combinators
import Relational.Proofs.Fairness
import Relational.Proofs.Threads
import Relational.Proofs.Freshness
import Relational.Proofs.Equivariance
import Relational.Proofs.Renumbering
import Relational.Proofs.Multiplicity
import Relational.Proofs.Reshaping
import Relational.Proofs.QueryNumbering
import Relational.Proofs.RecursiveUnification
import Relational.Proofs.Resolution
import Relational.Proofs.Canonical
import Relational.Proofs.StreamRecursion
import Relational.Proofs.Footprint
import Relational.Proofs.Halting
import Relational.Proofs.Consumption
import Relational.Proofs.LongerRuns
import Relational.Proofs.Agreement
import Relational.Proofs.Mapping
import Relational.Proofs.Correspondence
import Relational.Proofs.Units
import Relational.Proofs.HiddenBinding
import Relational.Proofs.SeveralVariables
import Relational.Proofs.Productivity
import Relational.Proofs.Identity
import Relational.Proofs.Readability
