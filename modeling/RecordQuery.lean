import RecordQuery.Text.Blank
import RecordQuery.Text.Letter
import RecordQuery.Text.Numeral
import RecordQuery.Text.Lowercase
import RecordQuery.Number.Decimal.Reader
import RecordQuery.Number.Decimal.Printer
import RecordQuery.Number.Binary.Reader
import RecordQuery.Number.Binary.Printer
import RecordQuery.Calendar.DateTime
import RecordQuery.Calendar.Duration
import RecordQuery.Scalar
import RecordQuery.Schema.Basic
import RecordQuery.Language.Lexer
import RecordQuery.Language.Parser
import RecordQuery.Filter
import RecordQuery.Document
import RecordQuery.Yaml.Scalar
import RecordQuery.Yaml.Node
import RecordQuery.Yaml.Reader
import RecordQuery.Entries
import RecordQuery.Schema.Reader
import RecordQuery.Files.RecordFile
import RecordQuery.Files.Collect
import RecordQuery.Main
import RecordQuery.Proofs.Splitting
import RecordQuery.Proofs.Grammar
import RecordQuery.Proofs.Outcome
import RecordQuery.Proofs.ParserSound
import RecordQuery.Proofs.Characters
import RecordQuery.Proofs.Digits
import RecordQuery.Proofs.ParserComplete
import RecordQuery.Proofs.Printing
import RecordQuery.Proofs.Lexing
import RecordQuery.Proofs.Lexemes
import RecordQuery.Proofs.RoundTrip
import RecordQuery.Proofs.Meaning
import RecordQuery.Proofs.Sql.Like
import RecordQuery.Proofs.Sql.Formula
import RecordQuery.Proofs.Sql.Reader
import RecordQuery.Proofs.Sql.Lexing
import RecordQuery.Proofs.Sql.Parsing
import RecordQuery.Proofs.Conforming
import RecordQuery.Proofs.Sql.Agreement
import RecordQuery.Proofs.Height
import RecordQuery.Proofs.Kinds
import RecordQuery.Proofs.Names
import RecordQuery.Proofs.Legality
import RecordQuery.Proofs.Walks
import RecordQuery.Proofs.Sql.Marks
import RecordQuery.Proofs.Spelling
import RecordQuery.Proofs.Words
import RecordQuery.Proofs.Tiling
import RecordQuery.Proofs.Restating
import RecordQuery.Proofs.Number.Rounding
import RecordQuery.Proofs.StringValues
import RecordQuery.Proofs.Number.Formats
import RecordQuery.Proofs.Number.Shortest
import RecordQuery.Proofs.Number.Text
import RecordQuery.Proofs.Number.Conversion
import RecordQuery.Proofs.NumberValues
import RecordQuery.Proofs.WholeNumbers
import RecordQuery.Proofs.ScalarOrder
import RecordQuery.Proofs.Number.Nearest
import RecordQuery.Proofs.FloatOrder
import RecordQuery.Proofs.Operators
import RecordQuery.Proofs.Respelling
import RecordQuery.Proofs.Sql.Literals
import RecordQuery.Proofs.FirstMatch
import RecordQuery.Proofs.Labels
import RecordQuery.Proofs.Paths
import RecordQuery.Proofs.CanonicalPaths
import RecordQuery.Proofs.Shapes
import RecordQuery.Proofs.Navigation
import RecordQuery.Proofs.OwnNames
import RecordQuery.Proofs.Positions
import RecordQuery.Proofs.Culprits
import RecordQuery.Proofs.Modes
import RecordQuery.Proofs.RelativePaths
import RecordQuery.Proofs.FileTrees
import RecordQuery.Proofs.Lines
import RecordQuery.Proofs.Sql.Patterns
import RecordQuery.Proofs.Durations
import RecordQuery.Proofs.DurationForms
import RecordQuery.Proofs.DurationWords
import RecordQuery.Proofs.CalendarTexts
import RecordQuery.Proofs.Number.Overflow
import RecordQuery.Proofs.FloatLiterals
