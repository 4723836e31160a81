import LoopCapture.Files.Tree
import LoopCapture.Main
import LoopCapture.Scope.Ledger
import LoopCapture.Wrapping.Session
import LoopCapture.Proofs.Machine.FrameLaws
import LoopCapture.Proofs.Wrapped.Fits
import LoopCapture.Proofs.Simulation.Lookup
import LoopCapture.Proofs.Simulation.Growth
import LoopCapture.Proofs.Machine.DisplayLaws
import LoopCapture.Proofs.Simulation.Values
import LoopCapture.Proofs.Simulation.Outcome
import LoopCapture.Proofs.Simulation.Primitives
import LoopCapture.Proofs.Simulation.Expression
import LoopCapture.Proofs.Simulation.Call
import LoopCapture.Proofs.Wrapped.Hoisting
import LoopCapture.Proofs.Simulation.Body
import LoopCapture.Proofs.Simulation.Loop
import LoopCapture.Proofs.Simulation.Statement
import LoopCapture.Proofs.Simulation.WrappedBody
import LoopCapture.Proofs.Simulation.Program
import LoopCapture.Proofs.Simulation.Ending
import LoopCapture.Proofs.Simulation.Host
import LoopCapture.Proofs.Concrete.ParserLaws
import LoopCapture.Proofs.Concrete.Spelling
import LoopCapture.Proofs.Concrete.Strata
import LoopCapture.Proofs.Concrete.Soundness
import LoopCapture.Proofs.Concrete.Names
import LoopCapture.Proofs.Wrapped.Movable
import LoopCapture.Proofs.Wrapped.FitsMovable
import LoopCapture.Proofs.Wrapped.Meaning
import LoopCapture.Proofs.Simulation.Scoping
import LoopCapture.Proofs.Outline.Layout
import LoopCapture.Proofs.Outline.Traversal
import LoopCapture.Proofs.Concrete.Layout
import LoopCapture.Proofs.Token.Scanning
import LoopCapture.Proofs.Outline.Grammar
import LoopCapture.Proofs.Outline.Regular
import LoopCapture.Proofs.Scope.Growth
import LoopCapture.Proofs.Scope.Collecting
import LoopCapture.Proofs.Scope.Enclosing
import LoopCapture.Proofs.Wrapping.Steps
import LoopCapture.Proofs.Wrapping.Lexical
import LoopCapture.Proofs.Wrapping.Evolution
import LoopCapture.Proofs.Wrapping.Captures
import LoopCapture.Proofs.Wrapping.SecondRun
import LoopCapture.Proofs.Wrapping.Modes
import LoopCapture.Proofs.Wrapping.Stable
import LoopCapture.Proofs.Wrapping.Once
import LoopCapture.Proofs.Wrapping.References
import LoopCapture.Proofs.Concrete.Leading
import LoopCapture.Proofs.Concrete.Completeness
import LoopCapture.Proofs.Concrete.Respelling
import LoopCapture.Proofs.Grammar.Basic
import LoopCapture.Proofs.Grammar.Canonical
import LoopCapture.Proofs.Grammar.Acceptance
import LoopCapture.Proofs.Grammar.Prediction
import LoopCapture.Proofs.Grammar.ExprRules
import LoopCapture.Proofs.Grammar.StmtRules
import LoopCapture.Proofs.Grammar.FirstError
import LoopCapture.Proofs.Jumps.Targets
import LoopCapture.Proofs.Jumps.Confined
import LoopCapture.Proofs.Jumps.Run
import LoopCapture.Proofs.Ranges.Tokens
import LoopCapture.Proofs.Concrete.Anchors
import LoopCapture.Proofs.Ranges.Literals
import LoopCapture.Proofs.Concrete.Failures
import LoopCapture.Proofs.Ranges.Soundness
import LoopCapture.Proofs.Compilation.Answers
import LoopCapture.Proofs.Insertions.Weaving
import LoopCapture.Proofs.Wrapping.Hindrances
import LoopCapture.Proofs.Scope.Declarations
import LoopCapture.Proofs.Wrapping.Users
import LoopCapture.Proofs.Wrapping.Separation
import LoopCapture.Proofs.Wrapping.Enclosure
import LoopCapture.Proofs.Insertions.History
import LoopCapture.Proofs.Machine.TimerLaws
import LoopCapture.Proofs.Machine.Binding
import LoopCapture.Proofs.Machine.Environments
import LoopCapture.Proofs.Runs.Access
import LoopCapture.Proofs.Runs.Agree
import LoopCapture.Proofs.Runs.Primitives
import LoopCapture.Proofs.Runs.Expression
import LoopCapture.Proofs.Runs.Statement
import LoopCapture.Proofs.Runs.Program
import LoopCapture.Proofs.Runs.Names
