import ConstraintSearch.Lowering.Passes
import ConstraintSearch.Search.Document
import ConstraintSearch.Search.Grid
import ConstraintSearch.Search.Properties
import ConstraintSearch.Search.Session
import ConstraintSearch.Proofs.Formula.Nodes
import ConstraintSearch.Proofs.Lowering.Derivation
import ConstraintSearch.Proofs.BinaryFloat.Arithmetic
import ConstraintSearch.Proofs.BinaryFloat.Decimal
import ConstraintSearch.Proofs.BinaryFloat.Text
import ConstraintSearch.Proofs.Formula.Operators
import ConstraintSearch.Proofs.Lowering.Agreement
import ConstraintSearch.Proofs.Lowering.Casts
import ConstraintSearch.Proofs.Lowering.Faithful
import ConstraintSearch.Proofs.Lowering.Narrowing
import ConstraintSearch.Proofs.Lowering.Simulation
import ConstraintSearch.Proofs.Scalar.Text
import ConstraintSearch.Proofs.Search.Recovery
import ConstraintSearch.Proofs.Search.Soundness
import ConstraintSearch.Proofs.Formula.Safety
import ConstraintSearch.Proofs.Lowering.Acceptance
import ConstraintSearch.Proofs.Lowering.Safety
import ConstraintSearch.Proofs.Lowering.Numbering
import ConstraintSearch.Proofs.Lowering.Unknowns
import ConstraintSearch.Proofs.Lowering.Renaming
import ConstraintSearch.Proofs.Nesting
import ConstraintSearch.Proofs.Search.Outcomes
import ConstraintSearch.Proofs.Search.Readings
import ConstraintSearch.Proofs.Search.Frames
import ConstraintSearch.Proofs.Search.Contexts
import ConstraintSearch.Proofs.Search.LiveAssertions
import ConstraintSearch.Proofs.Formula.Typing
import ConstraintSearch.Proofs.Search.Sharing
import ConstraintSearch.Proofs.Term.Readability
import ConstraintSearch.Proofs.Lowering.Visits
import ConstraintSearch.Proofs.Lowering.Passes
import ConstraintSearch.Proofs.Lowering.Zeros
import ConstraintSearch.Proofs.Term.Literals
import ConstraintSearch.Proofs.BinaryFloat.DoubleRounding
import ConstraintSearch.Proofs.Formula.Casts
import ConstraintSearch.Proofs.Search.Grid
import ConstraintSearch.Proofs.Term.Strictness
import ConstraintSearch.Proofs.TwosComplement
import ConstraintSearch.Proofs.Formula.DeclaredTypes
import ConstraintSearch.Proofs.Search.Properties
import ConstraintSearch.Proofs.Search.Configuration
import ConstraintSearch.Proofs.Search.Budgets
import ConstraintSearch.Proofs.Lowering.Symmetry
import ConstraintSearch.Proofs.Lowering.Size
import ConstraintSearch.Proofs.Decimal.Conversion
import ConstraintSearch.Proofs.Formula.Decimals
import ConstraintSearch.Proofs.Formula.Text
