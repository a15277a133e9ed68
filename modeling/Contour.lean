import Contour.Command.Line
import Contour.DeltaFile.Basic
import Contour.Editor.Message
import Contour.Machine
import Contour.Main
import Contour.Proofs.Assembled
import Contour.Proofs.Assembly
import Contour.Proofs.Assembly.Grammar
import Contour.Proofs.Assembly.Parts
import Contour.Proofs.Canonical
import Contour.Proofs.Cbor
import Contour.Proofs.Cbor.Local
import Contour.Proofs.Command.Flags
import Contour.Proofs.Command.Grammar
import Contour.Proofs.Command.Merge
import Contour.Proofs.Command.Normalize
import Contour.Proofs.Command.Paths
import Contour.Proofs.Command.Routes
import Contour.Proofs.Console
import Contour.Proofs.Decimal
import Contour.Proofs.DeltaFile.Basic
import Contour.Proofs.DeltaFile.Binary
import Contour.Proofs.DeltaFile.Lines
import Contour.Proofs.DeltaFile.Text
import Contour.Proofs.Digest
import Contour.Proofs.Editor.Bounds
import Contour.Proofs.Editor.Delivery
import Contour.Proofs.Editor.Diagnostics
import Contour.Proofs.Editor.Session
import Contour.Proofs.Editor.Trial
import Contour.Proofs.Files.Host
import Contour.Proofs.Files.Places
import Contour.Proofs.Files.Sound
import Contour.Proofs.Files.Tree
import Contour.Proofs.Latest
import Contour.Proofs.Machine.Alike
import Contour.Proofs.Machine.Budget
import Contour.Proofs.Machine.Fibonacci
import Contour.Proofs.Machine.Jumps
import Contour.Proofs.Machine.Moves
import Contour.Proofs.Machine.Refinement
import Contour.Proofs.Machine.Steps
import Contour.Proofs.Machine.Table
import Contour.Proofs.Machine.Words
import Contour.Proofs.Machine.World
import Contour.Proofs.Numeral
import Contour.Proofs.Numeral.Position
import Contour.Proofs.Opcode
import Contour.Proofs.Outline
import Contour.Proofs.Outline.Literals
import Contour.Proofs.Path
import Contour.Proofs.Path.Course
import Contour.Proofs.Runner.Protocol
import Contour.Proofs.Settings
import Contour.Proofs.Settings.Nearest
import Contour.Proofs.Shelf.History
import Contour.Proofs.Shelf.Opening
import Contour.Proofs.Shelf.Storage
import Contour.Proofs.Source
import Contour.Proofs.Source.Bounds
import Contour.Proofs.Source.Lines
import Contour.Proofs.Source.Retouch
import Contour.Proofs.Stream
import Contour.Proofs.Stream.Closed
import Contour.Proofs.Stream.Listing
import Contour.Proofs.Stream.Roles
import Contour.Proofs.Stream.Walk
import Contour.Proofs.Text.Blank
import Contour.Proofs.Text.Lines
import Contour.Proofs.Utf8
import Contour.Settings.Find
import Contour.Shelf.Storage
import Contour.Source
import Contour.Stream
import Contour.Trial
