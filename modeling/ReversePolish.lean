import ReversePolish.Reduction.Rule
import ReversePolish.Reduction.Positions
import ReversePolish.Expression
import ReversePolish.ValueStack
import ReversePolish.Demand
import ReversePolish.Registry.Offers
import ReversePolish.History.Run
import ReversePolish.Formula
import ReversePolish.Calculation
import ReversePolish.Text.Row
import ReversePolish.Text.Spacing
import ReversePolish.Main
import ReversePolish.Proofs.Decimal.RoundTrip
import ReversePolish.Proofs.Reduction.Rule
import ReversePolish.Proofs.Reduction.Simulation
import ReversePolish.Proofs.Reduction.Postfix
import ReversePolish.Proofs.Reduction.LeftToRight
import ReversePolish.Proofs.Reduction.Trace
import ReversePolish.Proofs.Reduction.Positions
import ReversePolish.Proofs.Reduction.Demand
import ReversePolish.Proofs.Reduction.Folding
import ReversePolish.Proofs.Reduction.Levels
import ReversePolish.Proofs.Registry.FirstOffer
import ReversePolish.Proofs.Registry.Registration
import ReversePolish.Proofs.History.Retelling
import ReversePolish.Proofs.History.Unwinding
import ReversePolish.Proofs.Calculator.Ledger
import ReversePolish.Proofs.Calculator.Barrier
import ReversePolish.Proofs.Calculator.Formula
import ReversePolish.Proofs.Calculator.History
import ReversePolish.Proofs.Calculator.Calculation
import ReversePolish.Proofs.Calculator.Replay
import ReversePolish.Proofs.Calculator.Symbols
import ReversePolish.Proofs.Calculator.Typing
import ReversePolish.Proofs.Calculator.StackNote
import ReversePolish.Proofs.Calculator.Diagnostics
import ReversePolish.Proofs.Program.Diagnostics
import ReversePolish.Proofs.Program.Arguments
import ReversePolish.Proofs.Session.Lines
import ReversePolish.Proofs.Program.Splitting
import ReversePolish.Proofs.Session.Commands
import ReversePolish.Proofs.Program.Commands
