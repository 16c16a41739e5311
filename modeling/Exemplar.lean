import Exemplar.Builder.Generator
import Exemplar.Builder.Template
import Exemplar.Builder.Values
import Exemplar.Calendar
import Exemplar.Cause
import Exemplar.Command.Basic
import Exemplar.Command.Configure
import Exemplar.Command.Flag
import Exemplar.Command.Help
import Exemplar.Command.Notice
import Exemplar.Command.Run
import Exemplar.Command.Scope
import Exemplar.Command.Session
import Exemplar.Command.Usage
import Exemplar.Config.Basic
import Exemplar.Config.Cache
import Exemplar.Config.Decode
import Exemplar.Config.Format
import Exemplar.Config.Layers
import Exemplar.Config.Load
import Exemplar.Config.Save
import Exemplar.Config.TablesFile
import Exemplar.Config.Validate
import Exemplar.Data
import Exemplar.Decimal.Basic
import Exemplar.Decimal.Shortest
import Exemplar.Diagnostic
import Exemplar.Disk.Access
import Exemplar.Disk.Basic
import Exemplar.Disk.Changes
import Exemplar.Extract.Declarations
import Exemplar.Extract.Enumerations
import Exemplar.Extract.Mapping
import Exemplar.Failure
import Exemplar.Grammar.Brackets
import Exemplar.Grammar.Cursor
import Exemplar.Grammar.Statements
import Exemplar.Grammar.Types
import Exemplar.Json.Writer
import Exemplar.Log.Console
import Exemplar.Log.Entry
import Exemplar.Log.Sink
import Exemplar.Log.Structured
import Exemplar.Log.Verbosity
import Exemplar.Main
import Exemplar.Model.Declaration
import Exemplar.Model.Tables
import Exemplar.Model.Ty
import Exemplar.Pass.Check
import Exemplar.Pass.Group
import Exemplar.Pass.Output
import Exemplar.Pass.Unit
import Exemplar.Pass.Watch
import Exemplar.Pass.Write
import Exemplar.Path
import Exemplar.Source.Position
import Exemplar.Terminal
import Exemplar.Text.Basic
import Exemplar.Text.Blank
import Exemplar.Text.Digits
import Exemplar.Text.Distance
import Exemplar.Text.Identifier
import Exemplar.Text.LetterCase
import Exemplar.Text.Lines
import Exemplar.Text.Numeral
import Exemplar.Text.Printable
import Exemplar.Text.Quoted
import Exemplar.Token.Basic
import Exemplar.Token.Gap
import Exemplar.Token.Lexeme
import Exemplar.Token.Stream
import Exemplar.Toml.Basic
import Exemplar.Toml.Document
import Exemplar.Toml.Number
import Exemplar.Toml.Reader
import Exemplar.Toml.Writer
import Exemplar.Tree.Statement
import Exemplar.Tree.TypeExpr
import Exemplar.Version.Build
import Exemplar.Version.Constraint
import Exemplar.Version.Number
import Exemplar.Yaml.Plain
import Exemplar.Yaml.Scalar
import Exemplar.Yaml.Writer
import Exemplar.Proofs.Builder.Generated
import Exemplar.Proofs.Grammar.Termination
import Exemplar.Proofs.Pass.Checking
import Exemplar.Proofs.Types.RoundTrip
import Exemplar.Proofs.Extract.Placeless
import Exemplar.Proofs.Pass.Overwriting
import Exemplar.Proofs.Command.Sparing
import Exemplar.Proofs.Grammar.Layout
import Exemplar.Proofs.Grammar.UnitSpans
import Exemplar.Proofs.Grammar.JoinedSources
import Exemplar.Proofs.Pass.Concurrency
import Exemplar.Proofs.Pass.Settling
import Exemplar.Proofs.Extract.Resolving
import Exemplar.Proofs.Grammar.ErrorReports
import Exemplar.Proofs.Config.RoundTrip
import Exemplar.Proofs.Model.Describing
import Exemplar.Proofs.Config.Origins
import Exemplar.Proofs.Types.ConditionalTypes
import Exemplar.Proofs.Grammar.SkippedExpressions
import Exemplar.Proofs.Token.Respacing
import Exemplar.Proofs.Token.LineEnds
import Exemplar.Proofs.Token.Substitutions
import Exemplar.Proofs.Builder.Dividing
import Exemplar.Proofs.Builder.Placeholders
import Exemplar.Proofs.Builder.Sampling
import Exemplar.Proofs.Model.Merging
import Exemplar.Proofs.Config.Nearest
import Exemplar.Proofs.Grammar.GroupScans
import Exemplar.Proofs.Pass.Naming
import Exemplar.Proofs.Extract.Members
import Exemplar.Proofs.Extract.Shapes
import Exemplar.Proofs.Token.Positions
import Exemplar.Proofs.Builder.Tracing
