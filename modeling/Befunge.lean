import Befunge.Heading
import Befunge.Pointer
import Befunge.Stack
import Befunge.Raster
import Befunge.Text.Lines
import Befunge.Text.Symbol
import Befunge.Transcript
import Befunge.Instruction
import Befunge.Playfield
import Befunge.Random.ChaCha
import Befunge.Random.Seeded
import Befunge.Session
import Befunge.Viewer.Basic
import Befunge.Main
import Befunge.Proofs.Cycle
import Befunge.Proofs.Accounting
import Befunge.Proofs.Commands
import Befunge.Proofs.Coherence
import Befunge.Proofs.Record
import Befunge.Proofs.Retracing
import Befunge.Proofs.Replay
import Befunge.Proofs.Recording
import Befunge.Proofs.Navigation
import Befunge.Proofs.Confinement
import Befunge.Proofs.Halting
import Befunge.Proofs.Underflow
import Befunge.Proofs.Draws
import Befunge.Proofs.Browsing
import Befunge.Proofs.Drawing
import Befunge.Proofs.Legibility
import Befunge.Proofs.Literals
import Befunge.Proofs.PrintLoop
import Befunge.Proofs.Comments
import Befunge.Proofs.FieldWindow
import Befunge.Proofs.Memory
import Befunge.Proofs.Budget
import Befunge.Proofs.SourceText
import Befunge.Proofs.StackWindow
import Befunge.Proofs.Panes
import Befunge.Proofs.OutputText
import Befunge.Proofs.OutputWindow
import Befunge.Proofs.Following
import Befunge.Proofs.Torus
import Befunge.Proofs.Operators
