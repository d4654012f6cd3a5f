import Reckon.Inspection
import Reckon.Limits.Document
import Reckon.Main
import Reckon.Number.Tolerance
import Reckon.Proofs.Calculator.Formula
import Reckon.Proofs.Calculator.IntegerTree
import Reckon.Proofs.Calculator.Precedence
import Reckon.Proofs.Expression.Composition
import Reckon.Proofs.Expression.Balance
import Reckon.Proofs.Expression.Arguments
import Reckon.Proofs.Expression.Refusal
import Reckon.Proofs.Calculator.Limits
import Reckon.Proofs.Expression.Located
import Reckon.Proofs.Expression.Positions
import Reckon.Proofs.Expression.LifeCycle
import Reckon.Proofs.Grammar.Preserved
import Reckon.Proofs.Calculator.Finite
import Reckon.Proofs.Expression.Checked
import Reckon.Proofs.Expression.Enclosed
import Reckon.Proofs.Expression.Conserved
import Reckon.Proofs.Expression.PrefixGrouping
import Reckon.Proofs.Calculator.OperandLimit
import Reckon.Proofs.Grammar.Built
import Reckon.Proofs.Expression.Progress
import Reckon.Proofs.Expression.Segmented
import Reckon.Proofs.Expression.Previous
import Reckon.Proofs.Expression.FirstFault
import Reckon.Proofs.Expression.Relocated
import Reckon.Proofs.Expression.Inserted
import Reckon.Proofs.Calculator.Enumeration
import Reckon.Proofs.Calculator.Separator
import Reckon.Proofs.Calculator.Uniform
import Reckon.Proofs.Expression.Resolved
import Reckon.Proofs.Grammar.Agreement
import Reckon.Proofs.Grammar.Standing
import Reckon.Proofs.Calculator.ReadBack
import Reckon.Proofs.Limits.RoundTrip
import Reckon.Proofs.Number.Magnitude
import Reckon.Proofs.Calculator.Magnitude
import Reckon.Proofs.Number.ByValue
import Reckon.Proofs.Calculator.Numerals
import Reckon.Proofs.Text.Lines
import Reckon.Proofs.CommandLine
import Reckon.Proofs.Token.Walk
