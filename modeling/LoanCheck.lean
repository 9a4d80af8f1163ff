import LoanCheck.Check.Probe
import LoanCheck.Check.Session
import LoanCheck.CommandLine.Run
import LoanCheck.Main
import LoanCheck.Proofs.Loan.Ledger
import LoanCheck.Proofs.Ownership
import LoanCheck.Proofs.Scope.Builder
import LoanCheck.Proofs.Scope.Transition
import LoanCheck.Proofs.Scope.Path
import LoanCheck.Proofs.Check.Change
import LoanCheck.Proofs.Check.Settlement
import LoanCheck.Proofs.Loan.Sound
import LoanCheck.Proofs.Check.Invariant
import LoanCheck.Proofs.Check.Extents
import LoanCheck.Proofs.Check.Silence
import LoanCheck.Proofs.Check.Frozen
import LoanCheck.Proofs.Check.Transfer
import LoanCheck.Proofs.Check.Operations
import LoanCheck.Proofs.Check.Holders
import LoanCheck.Proofs.Check.Reborrow
import LoanCheck.Proofs.Loan.Relaxation
import LoanCheck.Proofs.Check.Relaxation
import LoanCheck.Proofs.Scope.Lookup
import LoanCheck.Proofs.Scope.Operand
import LoanCheck.Proofs.Check.Reports
import LoanCheck.Proofs.Check.History
import LoanCheck.Proofs.Check.Dangling
import LoanCheck.Proofs.Check.Retained
import LoanCheck.Proofs.Check.Mutability
import LoanCheck.Proofs.Check.Independence
import LoanCheck.Proofs.Scope.Declared
import LoanCheck.Proofs.Check.Environment
import LoanCheck.Proofs.Scope.Joined
import LoanCheck.Proofs.Loan.Shift
import LoanCheck.Proofs.Check.Shift
import LoanCheck.Proofs.Check.Composition
import LoanCheck.Proofs.Loan.Origin
import LoanCheck.Proofs.Scope.Renaming
import LoanCheck.Proofs.Check.Renaming
import LoanCheck.Proofs.Check.Enclosed
import LoanCheck.Proofs.Check.Prefix
import LoanCheck.Proofs.Scope.Prefix
import LoanCheck.Proofs.Json.RoundTrip
import LoanCheck.Proofs.Program.RoundTrip
import LoanCheck.Proofs.Program.Rendering
import LoanCheck.Proofs.Program.Reading
import LoanCheck.Proofs.Check.Unkeyed
import LoanCheck.Proofs.Check.Attempt
import LoanCheck.Proofs.Check.Session
import LoanCheck.Proofs.Program.Names
import LoanCheck.Proofs.CommandLine.Options
import LoanCheck.Proofs.CommandLine.Files
import LoanCheck.Proofs.CommandLine.Verdict
import LoanCheck.Proofs.LastUse
import LoanCheck.Proofs.Scope.Flattening
import LoanCheck.Proofs.Scope.Nesting
import LoanCheck.Proofs.Check.Order
import LoanCheck.Proofs.Check.ScopeExit
import LoanCheck.Proofs.Loan.Set
import LoanCheck.Proofs.Check.Conflicts
import LoanCheck.Proofs.Program.Rejection
