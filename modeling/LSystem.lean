import LSystem.Table
import LSystem.Power
import LSystem.Grammar
import LSystem.Binary64.Basic
import LSystem.Binary64.Order
import LSystem.Binary64.Circular
import LSystem.Binary64.Root
import LSystem.Vector
import LSystem.Turtle
import LSystem.Bounds
import LSystem.Failure
import LSystem.Drawing
import LSystem.Run
import LSystem.Catalogue
import LSystem.Definition
import LSystem.Bundled
import LSystem.Decimal.Basic
import LSystem.Decimal.Shortest
import LSystem.Decimal.Places
import LSystem.Json.Numeral
import LSystem.Json.Basic
import LSystem.Json.Reader
import LSystem.Document.Encoding
import LSystem.Document.Basic
import LSystem.Document.VectorReader
import LSystem.Decimal.Reader
import LSystem.Decimal.Count
import LSystem.Text.CharSet
import LSystem.Text.WhiteSpace
import LSystem.Text.Alphanumeric
import LSystem.Text.Unseen
import LSystem.EnvFile.Variables
import LSystem.EnvFile.Line
import LSystem.EnvFile.Value
import LSystem.EnvFile.Assignment
import LSystem.Settings
import LSystem.Yaml.Cursor
import LSystem.Yaml.Scalar
import LSystem.Yaml.Token
import LSystem.Yaml.Node
import LSystem.Yaml.Library
import LSystem.Text.Quoted
import LSystem.Path
import LSystem.Workspace
import LSystem.Command.Basic
import LSystem.Command.Option
import LSystem.Command.Arguments
import LSystem.Command.Answer
import LSystem.Program.Basic
import LSystem.Program.OnWorkspace
import LSystem.Main
import LSystem.Proofs.Run.History
import LSystem.Proofs.Grammar.FiniteMap
import LSystem.Proofs.Grammar.Expansion
import LSystem.Proofs.Drawing.Brackets
import LSystem.Proofs.Drawing.Commands
import LSystem.Proofs.Run.Limit
import LSystem.Proofs.Grammar.Weights
import LSystem.Proofs.Grammar.Length
import LSystem.Proofs.Run.Length
import LSystem.Proofs.Drawing.Path
import LSystem.Proofs.Drawing.Retrace
import LSystem.Proofs.Vector.Rotation
import LSystem.Proofs.Drawing.Heading
import LSystem.Proofs.Run.Trace
import LSystem.Proofs.Binary64.Rounding
import LSystem.Proofs.Binary64.Parts
import LSystem.Proofs.Binary64.Order
import LSystem.Proofs.Binary64.Arithmetic
import LSystem.Proofs.Binary64.Sign
import LSystem.Proofs.Binary64.Spacing
import LSystem.Proofs.Binary64.Approximation
import LSystem.Proofs.Bounds.Growth
import LSystem.Proofs.Bounds.Least
import LSystem.Proofs.Drawing.Hull
import LSystem.Proofs.Drawing.Guarded
import LSystem.Proofs.Drawing.Branch
import LSystem.Proofs.Drawing.Connected
import LSystem.Proofs.Document.Snapshot
import LSystem.Proofs.Library.Resolve
import LSystem.Proofs.Library.Growth
import LSystem.Proofs.Workspace.Writing
import LSystem.Proofs.Workspace.Location
import LSystem.Proofs.Program.Session
import LSystem.Proofs.Command.Answer
import LSystem.Proofs.Program.Export
import LSystem.Proofs.Decimal.Shortest
import LSystem.Proofs.Decimal.Digits
import LSystem.Proofs.Decimal.Count
import LSystem.Proofs.Program.Limit
import LSystem.Proofs.Program.Expand
import LSystem.Proofs.Program.Settings
import LSystem.Proofs.Program.DefaultOutput
import LSystem.Proofs.Json.Numeral
import LSystem.Proofs.Json.Text
import LSystem.Proofs.Json.ReadBack
import LSystem.Proofs.Json.QuickReader
import LSystem.Proofs.Document.ReadBack
import LSystem.Proofs.Program.Modes
import LSystem.Proofs.Document.VectorReadBack
import LSystem.Proofs.Drawing.Mirror
