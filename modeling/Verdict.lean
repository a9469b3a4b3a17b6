import Verdict.DecisionPoint.Session
import Verdict.Main
import Verdict.Stream.Lemmas
import Verdict.Proofs.Value.Equality
import Verdict.Proofs.Value.Congruence
import Verdict.Proofs.Stream.Reading
import Verdict.Proofs.Stream.Single
import Verdict.Proofs.Stream.Waking
import Verdict.Proofs.Stream.Prompt
import Verdict.Proofs.Stream.Convergence
import Verdict.Proofs.Stream.News
import Verdict.Proofs.Stream.Consistency
import Verdict.Proofs.Stream.Retelling
import Verdict.Proofs.Evaluation.Compositional
import Verdict.Proofs.Evaluation.Substitution
import Verdict.Proofs.Evaluation.Direct
import Verdict.Proofs.Evaluation.Refinement
import Verdict.Proofs.Evaluation.DirectDecision
import Verdict.Proofs.Evaluation.Prompt
import Verdict.Proofs.Evaluation.Punctual
import Verdict.Proofs.DecisionPoint.Unchanging
import Verdict.Proofs.DecisionPoint.Settling
import Verdict.Proofs.DecisionPoint.Grouping
import Verdict.Proofs.DecisionPoint.Convergence
import Verdict.Proofs.DecisionPoint.Consistency
import Verdict.Proofs.DecisionPoint.Reporting
import Verdict.Proofs.DecisionPoint.Tearing
import Verdict.Proofs.Authorization.Combination
import Verdict.Proofs.Authorization.Coherence
import Verdict.Proofs.Authorization.Transformation
import Verdict.Proofs.Authorization.Reordering
import Verdict.Proofs.Authorization.Neutrality
import Verdict.Proofs.Authorization.Wire
import Verdict.Proofs.Stream.Always
import Verdict.Proofs.Stream.Inert
import Verdict.Proofs.Stream.Sleep
import Verdict.Proofs.Stream.Matching
import Verdict.Proofs.Stream.History
import Verdict.Proofs.Stream.Guard
import Verdict.Proofs.Stream.Turns
import Verdict.Proofs.Stream.Latest
import Verdict.Proofs.Stream.Switching
import Verdict.Proofs.Stream.Deadline
import Verdict.Proofs.Stream.Following
import Verdict.Proofs.Stream.Image
import Verdict.Proofs.Evaluation.Outside
import Verdict.Proofs.DecisionPoint.FailClosed
import Verdict.Proofs.DecisionPoint.Lifetime
import Verdict.Proofs.DecisionPoint.Holdings
import Verdict.Proofs.DecisionPoint.Demand
import Verdict.Proofs.DecisionPoint.Moves
import Verdict.Proofs.DecisionPoint.Interleaving
import Verdict.Proofs.Selection.Flattening
import Verdict.Proofs.Selection.Changing
import Verdict.Proofs.Selection.Positions
import Verdict.Proofs.Selection.Recursive
import Verdict.Proofs.Selection.Simulation
import Verdict.Proofs.Selection.Depth
import Verdict.Proofs.Selection.Replacement
import Verdict.Proofs.Selection.Reselection
import Verdict.Proofs.Selection.Ordering
import Verdict.Proofs.Selection.Forest
import Verdict.Proofs.Selection.Lenses
import Verdict.Proofs.Selection.Slicing
import Verdict.Proofs.Selection.Positional
import Verdict.Proofs.Selection.Congruence
import Verdict.Proofs.Evaluation.Rewriting
import Verdict.Proofs.Evaluation.Editing
import Verdict.Proofs.Evaluation.Targets
import Verdict.Proofs.Evaluation.Anchoring
import Verdict.Proofs.Evaluation.Coherence
import Verdict.Proofs.Evaluation.Demand
import Verdict.Proofs.Evaluation.Congruence
import Verdict.Proofs.Evaluation.Filtering
import Verdict.Proofs.Evaluation.Freshness
import Verdict.Proofs.DecisionPoint.Elements
import Verdict.Proofs.DecisionPoint.Agreement
import Verdict.Proofs.DecisionPoint.Pairing
import Verdict.Proofs.DecisionPoint.Spoofing
import Verdict.Proofs.DecisionPoint.Refusal
import Verdict.Proofs.DecisionPoint.Interception
import Verdict.Proofs.Policy.ExpressionForms
import Verdict.Proofs.Policy.DocumentForms
import Verdict.Proofs.Policy.Constructs
import Verdict.Proofs.Policy.Writing
import Verdict.Proofs.Policy.Image
import Verdict.Proofs.Policy.Format
import Verdict.Proofs.Number.Nearest
import Verdict.Proofs.Number.Shortest
import Verdict.Proofs.Number.Decimal
import Verdict.Proofs.Number.Text
import Verdict.Proofs.Value.Ordering
import Verdict.Proofs.Value.Comparison
import Verdict.Proofs.Value.Integers
import Verdict.Proofs.Function.Blackening
import Verdict.Proofs.CommandLine.Checking
