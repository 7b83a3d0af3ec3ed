import Untangle.Breaks.Basic
import Untangle.Breaks.Registry
import Untangle.Breaks.Validation
import Untangle.Constraint
import Untangle.Decimal.Nearest
import Untangle.Decimal.Shortest
import Untangle.Decompile
import Untangle.Descriptor
import Untangle.Flow.Dominance
import Untangle.Flow.Graph
import Untangle.Flow.Loops
import Untangle.Flow.Search
import Untangle.Folding
import Untangle.Folding.Idioms
import Untangle.Inference
import Untangle.Proofs.Absorption.SideBlocks
import Untangle.Proofs.Balance.Atoms
import Untangle.Proofs.Balance.Balanced
import Untangle.Proofs.Balance.Conservation
import Untangle.Proofs.Balance.Emitters
import Untangle.Proofs.Breaks.Agreement
import Untangle.Proofs.Breaks.Consistency
import Untangle.Proofs.Breaks.Emitters
import Untangle.Proofs.Breaks.Growth
import Untangle.Proofs.Breaks.Marks
import Untangle.Proofs.Breaks.Passes
import Untangle.Proofs.Breaks.Session
import Untangle.Proofs.Breaks.Sites
import Untangle.Proofs.Breaks.Targets
import Untangle.Proofs.Breaks.Tracking
import Untangle.Proofs.Breaks.Walking
import Untangle.Proofs.Conditions.Negation
import Untangle.Proofs.Continuing.Feeding
import Untangle.Proofs.Continuing.Narrow
import Untangle.Proofs.Descent.Agreement
import Untangle.Proofs.Descent.Outstanding
import Untangle.Proofs.Descent.Recursion
import Untangle.Proofs.Descriptors.Errors
import Untangle.Proofs.Descriptors.RoundTrip
import Untangle.Proofs.Emission.Causes
import Untangle.Proofs.Emission.Ending
import Untangle.Proofs.Emission.Gives
import Untangle.Proofs.Emission.Inversion
import Untangle.Proofs.Emission.Pending
import Untangle.Proofs.Emission.Shapes
import Untangle.Proofs.Equality.Erasure
import Untangle.Proofs.Equality.Refill
import Untangle.Proofs.Equality.Same
import Untangle.Proofs.Faithful.Constructs
import Untangle.Proofs.Faithful.Latches
import Untangle.Proofs.Faithful.Loops
import Untangle.Proofs.Faithful.Preservation
import Untangle.Proofs.Faithful.Written
import Untangle.Proofs.Flow.Dominators
import Untangle.Proofs.Flow.Finishing
import Untangle.Proofs.Flow.NaturalLoops
import Untangle.Proofs.Flow.Nesting
import Untangle.Proofs.Flow.Ordering
import Untangle.Proofs.Flow.Parents
import Untangle.Proofs.Flow.Reach
import Untangle.Proofs.Flow.Reducible
import Untangle.Proofs.Flow.Routes
import Untangle.Proofs.Flow.Sound
import Untangle.Proofs.Flow.Verdict
import Untangle.Proofs.Flow.Walks
import Untangle.Proofs.Folding.Alike
import Untangle.Proofs.Folding.Chains
import Untangle.Proofs.Folding.Converging
import Untangle.Proofs.Folding.Interpretation
import Untangle.Proofs.Folding.Load
import Untangle.Proofs.Folding.Orientation
import Untangle.Proofs.Folding.Preservation
import Untangle.Proofs.Folding.Replacing
import Untangle.Proofs.Folding.Rules
import Untangle.Proofs.Folding.Saving
import Untangle.Proofs.Folding.Settling
import Untangle.Proofs.Folding.Spending
import Untangle.Proofs.Layout.Emitters
import Untangle.Proofs.Layout.Laid
import Untangle.Proofs.Layout.Lays
import Untangle.Proofs.Layout.Loops
import Untangle.Proofs.Layout.Orderly
import Untangle.Proofs.Layout.Structured
import Untangle.Proofs.Pairing.Analyses
import Untangle.Proofs.Pairing.Emitters
import Untangle.Proofs.Pairing.Recovery
import Untangle.Proofs.Pairing.Registries
import Untangle.Proofs.Pairing.Together
import Untangle.Proofs.Pairing.Trees
import Untangle.Proofs.Pairing.Unfolded
import Untangle.Proofs.Pairing.Unreached
import Untangle.Proofs.Protection.Answers
import Untangle.Proofs.Protection.Clauses
import Untangle.Proofs.Protection.Coverage
import Untangle.Proofs.Protection.Grouping
import Untangle.Proofs.Protection.Priority
import Untangle.Proofs.Protection.Regions
import Untangle.Proofs.Rebuilding.Parts
import Untangle.Proofs.Rebuilding.Places
import Untangle.Proofs.Rebuilding.Preorder
import Untangle.Proofs.Rebuilding.Steps
import Untangle.Proofs.Rebuilding.Walk
import Untangle.Proofs.Rendering.Pieces
import Untangle.Proofs.Rendering.Readability
import Untangle.Proofs.Running.Congruence
import Untangle.Proofs.Running.Following
import Untangle.Proofs.Running.Forms
import Untangle.Proofs.Running.Loops
import Untangle.Proofs.Running.Meaning
import Untangle.Proofs.Running.Resuming
import Untangle.Proofs.Running.Rounds
import Untangle.Proofs.Running.Runs
import Untangle.Proofs.Running.Switches
import Untangle.Proofs.Softening.Accepted
import Untangle.Proofs.Softening.Hooks
import Untangle.Proofs.Softening.Nodes
import Untangle.Proofs.Softening.Passes
import Untangle.Proofs.Softening.Types
import Untangle.Proofs.Sweeping.Branches
import Untangle.Proofs.Sweeping.Careful
import Untangle.Proofs.Sweeping.Failures
import Untangle.Proofs.Sweeping.Loops
import Untangle.Proofs.Sweeping.Ready
import Untangle.Proofs.Sweeping.Sweeps
import Untangle.Proofs.Switching.Dispatch
import Untangle.Proofs.Switching.Labels
import Untangle.Proofs.Switching.Lowering
import Untangle.Proofs.Switching.Order
import Untangle.Proofs.Switching.Strands
import Untangle.Proofs.Typing.Ancestors
import Untangle.Proofs.Typing.Annotating
import Untangle.Proofs.Typing.Inferred
import Untangle.Proofs.Typing.Misses
import Untangle.Proofs.Typing.Reference
import Untangle.Proofs.WellFormed.Checked
import Untangle.Proofs.WellFormed.Decompiled
import Untangle.Proofs.WellFormed.Emitted
import Untangle.Proofs.WellFormed.Operands
import Untangle.Proofs.WellFormed.Passes
import Untangle.Report.Diagnostic
import Untangle.Report.Event
import Untangle.Report.Names
import Untangle.Resolver
import Untangle.Settings.Basic
import Untangle.Settings.Loading
import Untangle.Settings.LogBuffer
import Untangle.Settings.LogDirective
import Untangle.Settings.LogField
import Untangle.Settings.Reading
import Untangle.Structuring
import Untangle.Structuring.Arms
import Untangle.Structuring.Constructs
import Untangle.Structuring.Emission
import Untangle.Structuring.Error
import Untangle.Structuring.Induction
import Untangle.Structuring.LoopShape
import Untangle.Structuring.Protection
import Untangle.Structuring.Survey
import Untangle.Text.Alphanumeric
import Untangle.Text.CodePoints
import Untangle.Text.Pattern
import Untangle.Text.Pattern.Basic
import Untangle.Text.Pattern.Bracketed
import Untangle.Text.Quoted
import Untangle.Toml.Document
import Untangle.Toml.Line
import Untangle.Toml.Quoted
import Untangle.Toml.Scalar
import Untangle.Toml.Value
import Untangle.Tree.Checks
import Untangle.Tree.Expr
import Untangle.Tree.Node
import Untangle.Tree.Operands
import Untangle.Tree.Outline
import Untangle.Tree.Rebuild
import Untangle.Tree.Render
import Untangle.Tree.Statement
import Untangle.Tree.Typing
import Untangle.Ty
