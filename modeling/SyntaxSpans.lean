import SyntaxSpans.Main
import SyntaxSpans.Placement.Session
import SyntaxSpans.Proofs.Bounds
import SyntaxSpans.Proofs.Fixpoint
import SyntaxSpans.Proofs.Independence
import SyntaxSpans.Proofs.Attaching
import SyntaxSpans.Proofs.Nesting
import SyntaxSpans.Proofs.Stripping
import SyntaxSpans.Proofs.Containment
import SyntaxSpans.Proofs.Encoding
import SyntaxSpans.Proofs.Lines
import SyntaxSpans.Proofs.Grammar
import SyntaxSpans.Proofs.Faults
import SyntaxSpans.Proofs.FirstFault
import SyntaxSpans.Proofs.WalkFault
import SyntaxSpans.Proofs.AllOrNothing
import SyntaxSpans.Proofs.Acceptance
import SyntaxSpans.Proofs.Capture
import SyntaxSpans.Proofs.Ownership
import SyntaxSpans.Proofs.Bindings
import SyntaxSpans.Proofs.Patterns
import SyntaxSpans.Proofs.Entries
import SyntaxSpans.Proofs.ClosedForm
import SyntaxSpans.Proofs.LineEndings
import SyntaxSpans.Proofs.Rendering
import SyntaxSpans.Proofs.Reading
import SyntaxSpans.Proofs.Negation
import SyntaxSpans.Proofs.Plain
import SyntaxSpans.Proofs.Pairing
import SyntaxSpans.Proofs.Counterpart
import SyntaxSpans.Proofs.Searching
import SyntaxSpans.Proofs.Widening
import SyntaxSpans.Proofs.Omission
import SyntaxSpans.Proofs.Steps
import SyntaxSpans.Proofs.Locations
import SyntaxSpans.Proofs.Surrounding
import SyntaxSpans.Proofs.Naming
import SyntaxSpans.Proofs.Visiting
import SyntaxSpans.Proofs.Precedence
import SyntaxSpans.Proofs.Termination
