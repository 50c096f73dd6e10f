import ScopeMachine.Machine
import ScopeMachine.Proofs.Machine.Confinement
import ScopeMachine.Proofs.Machine.Discipline
import ScopeMachine.Proofs.Machine.FailSafety
import ScopeMachine.Proofs.Machine.Objects
import ScopeMachine.Proofs.Machine.Unobservability
import ScopeMachine.Proofs.Scope.Exactness
import ScopeMachine.Proofs.Scope.Lifetime
import ScopeMachine.Syntax.Describe
import ScopeMachine.Value.Describe
import ScopeMachine.Value.Equality
import ScopeMachine.Proofs.Evaluation.HopLimit
import ScopeMachine.Proofs.Machine.HopLimit
import ScopeMachine.Proofs.Evaluation.Candour
import ScopeMachine.Proofs.Evaluation.Provenance
import ScopeMachine.Proofs.Syntax.Closed
import ScopeMachine.Proofs.Home.Value
import ScopeMachine.Proofs.Home.Walk
import ScopeMachine.Proofs.Home.Tracking
import ScopeMachine.Proofs.Home.Return
import ScopeMachine.Proofs.Machine.Home
import ScopeMachine.Proofs.Layout.Correspondence
import ScopeMachine.Proofs.Layout.Value
import ScopeMachine.Proofs.Layout.Store
import ScopeMachine.Proofs.Layout.Evaluation
import ScopeMachine.Proofs.Layout.Run
import ScopeMachine.Proofs.Machine.Layout
import ScopeMachine.Proofs.Scope.Ancestry
import ScopeMachine.Proofs.Printing.Faithful
import ScopeMachine.Proofs.Symbol.History
import ScopeMachine.Proofs.Machine.Printing
import ScopeMachine.Proofs.Scope.Lookup
import ScopeMachine.Proofs.Reference.Chain
import ScopeMachine.Proofs.Reference.Alias
import ScopeMachine.Proofs.Syntax.ReadBack
import ScopeMachine.Syntax.Builder
import ScopeMachine.Proofs.Syntax.Builder
import ScopeMachine.Proofs.Evaluation.Comparison
import ScopeMachine.Proofs.Evaluation.Arithmetic
import ScopeMachine.Proofs.Machine.Termination
import ScopeMachine.Proofs.Evaluation.Among
import ScopeMachine.Proofs.Evaluation.Makers
import ScopeMachine.Proofs.Machine.Identity
import ScopeMachine.Proofs.Value.Equality
import ScopeMachine.Proofs.Value.Text
import ScopeMachine.Proofs.Machine.Drivers
import ScopeMachine.Proofs.Evaluation.CallFrame
