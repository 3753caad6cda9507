import EquationNetwork.Expr.Traversal
import EquationNetwork.Main
import EquationNetwork.Proofs.Expr.Parsing
import EquationNetwork.Proofs.Expr.FieldReading
import EquationNetwork.Proofs.Expr.LevelOrder
import EquationNetwork.Proofs.Expr.WellFormed
import EquationNetwork.Proofs.Expr.Preservation
import EquationNetwork.Proofs.Expr.Operands
import EquationNetwork.Proofs.Expr.Evaluation
import EquationNetwork.Proofs.Expr.Outcomes
import EquationNetwork.Proofs.Expr.Isolated
import EquationNetwork.Proofs.Token.Segmentation
import EquationNetwork.Proofs.Token.Patterns
import EquationNetwork.Proofs.Token.Separation
import EquationNetwork.Proofs.Expr.Nesting
import EquationNetwork.Proofs.Expr.Depth
import EquationNetwork.Proofs.Expr.ErrorPlaces
import EquationNetwork.Proofs.Expr.InOrder
import EquationNetwork.Proofs.Expr.MissingValues
import EquationNetwork.Proofs.Expr.VariableIndex
import EquationNetwork.Proofs.Network.Building
import EquationNetwork.Proofs.Network.Consistency
import EquationNetwork.Proofs.Network.Search
import EquationNetwork.Proofs.Network.Soundness
import EquationNetwork.Proofs.Network.Derivability
import EquationNetwork.Proofs.Network.Completeness
import EquationNetwork.Proofs.Expr.Printable
import EquationNetwork.Proofs.Expr.RoundTrip
import EquationNetwork.Proofs.Expr.Outline
import EquationNetwork.Proofs.Network.Representation
import EquationNetwork.Proofs.Network.Containers
import EquationNetwork.Proofs.Network.Simulation
import EquationNetwork.Proofs.Network.Termination
import EquationNetwork.Proofs.Network.Histories
import EquationNetwork.Proofs.Network.Locality
import EquationNetwork.Proofs.Network.Listing
import EquationNetwork.Proofs.Network.Growth
import EquationNetwork.Proofs.Text.Lines
import EquationNetwork.Proofs.Document.Merging
import EquationNetwork.Proofs.Document.Grammar
import EquationNetwork.Proofs.Document.Keys
import EquationNetwork.Proofs.Document.Repetition
import EquationNetwork.Proofs.Document.Progress
import EquationNetwork.Proofs.Problem.Layout
import EquationNetwork.Proofs.Problem.Loading
import EquationNetwork.Proofs.Problem.Running
import EquationNetwork.Proofs.Network.Evaluations
