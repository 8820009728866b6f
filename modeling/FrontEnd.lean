import FrontEnd.Browser.Display
import FrontEnd.Main
import FrontEnd.Proofs.Compilation
import FrontEnd.Proofs.Completion
import FrontEnd.Proofs.Continued
import FrontEnd.Proofs.Integrity
import FrontEnd.Proofs.Reports
import FrontEnd.Proofs.RoundTrip
import FrontEnd.Proofs.Twins
import FrontEnd.Proofs.Undefined
import FrontEnd.Proofs.Frame
import FrontEnd.Proofs.ScopeDiscipline
import FrontEnd.Proofs.Storage
import FrontEnd.Proofs.FrameLayout
import FrontEnd.Proofs.LifeCycle
import FrontEnd.Proofs.Facing
import FrontEnd.Proofs.Meanings
import FrontEnd.Proofs.Gathering
import FrontEnd.Proofs.Realization
import FrontEnd.Proofs.OutlineRoundTrip
import FrontEnd.Proofs.Instructions
import FrontEnd.Proofs.StatementRoundTrip
import FrontEnd.Proofs.Failures
import FrontEnd.Proofs.Balance
import FrontEnd.Proofs.Values
import FrontEnd.Proofs.NameStack
import FrontEnd.Proofs.Respaced
import FrontEnd.Proofs.Listing
import FrontEnd.Proofs.Acceptance
import FrontEnd.Proofs.Unexpected
import FrontEnd.Proofs.Sentence
import FrontEnd.Proofs.Redefined
import FrontEnd.Proofs.Signs
import FrontEnd.Proofs.Fading.Statement
import FrontEnd.Proofs.Settled
import FrontEnd.Proofs.Recovery
import FrontEnd.Proofs.CursorIndex
import FrontEnd.Proofs.LineNumbers
import FrontEnd.Proofs.Bounds
import FrontEnd.Proofs.Numeral
import FrontEnd.Proofs.Escapes
import FrontEnd.Proofs.CrossReference
import FrontEnd.Proofs.Highlighting
import FrontEnd.Proofs.Viewport
import FrontEnd.Proofs.Browsing
