import Flowchart.Main
import Flowchart.Preflight
import Flowchart.Proofs.Soundness
import Flowchart.Proofs.Completeness
import Flowchart.Proofs.Acceptance
import Flowchart.Proofs.FloatPattern
import Flowchart.Proofs.NumberText
import Flowchart.Proofs.Printing
import Flowchart.Proofs.Relexing
import Flowchart.Proofs.RoundTrip
import Flowchart.Proofs.Moves
import Flowchart.Proofs.SessionInvariant
import Flowchart.Proofs.Registers
import Flowchart.Proofs.Outcomes
import Flowchart.Proofs.History
import Flowchart.Proofs.StepLimit
import Flowchart.Proofs.ControlFlow
import Flowchart.Proofs.Exchange
import Flowchart.Proofs.Replay
import Flowchart.Proofs.Assignment
import Flowchart.Proofs.Arrangement
import Flowchart.Proofs.Relocation
import Flowchart.Proofs.Composition
import Flowchart.Proofs.Recording
import Flowchart.Proofs.Faulting
import Flowchart.Proofs.Coincidence
import Flowchart.Proofs.Breakdown
import Flowchart.Proofs.Reasons
import Flowchart.Proofs.Parentheses
import Flowchart.Proofs.Lexemes
import Flowchart.Proofs.Descent
import Flowchart.Proofs.Viability
import Flowchart.Proofs.EndMark
import Flowchart.Proofs.Quoting
import Flowchart.Proofs.Pattern
import Flowchart.Proofs.DirectivePattern
import Flowchart.Proofs.DirectiveLanguage
import Flowchart.Proofs.BoundNames
import Flowchart.Proofs.Questions
import Flowchart.Proofs.FirstFault
import Flowchart.Proofs.GraphIndex
import Flowchart.Proofs.Console
import Flowchart.Proofs.Pointing
import Flowchart.Proofs.Listing
import Flowchart.Proofs.Shapes
import Flowchart.Proofs.Reporting
import Flowchart.Proofs.Depth
import Flowchart.Proofs.Counting
import Flowchart.Proofs.Partition
