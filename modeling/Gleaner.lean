import Gleaner.Text.Place
import Gleaner.Text.Blank
import Gleaner.Text.Digit
import Gleaner.Regex.Spelling
import Gleaner.Regex.Machine
import Gleaner.Regex.Search
import Gleaner.Fault
import Gleaner.Numeral
import Gleaner.WordBoundary
import Gleaner.Token.Codes
import Gleaner.Token.Basic
import Gleaner.Token.Pattern
import Gleaner.Line.Word
import Gleaner.Line.Basic
import Gleaner.Line.Pattern
import Gleaner.Layout.Basic
import Gleaner.Json.Basic
import Gleaner.Json.Writer
import Gleaner.Json.Reader
import Gleaner.Capture.Stack
import Gleaner.Capture.Extractor
import Gleaner.Json.Describe
import Gleaner.Layout.Description
import Gleaner.Layout.Session
import Gleaner.Diagnostic.Basic
import Gleaner.Main
import Gleaner.Proofs.Fallible
import Gleaner.Proofs.Regex.Running
import Gleaner.Proofs.Regex.Searching
import Gleaner.Proofs.Regex.Budgets
import Gleaner.Proofs.Regex.Language
import Gleaner.Proofs.Regex.Names
import Gleaner.Proofs.Regex.Ungrouped
import Gleaner.Proofs.Regex.Lexemes
import Gleaner.Proofs.Regex.Reading
import Gleaner.Proofs.Numeral
import Gleaner.Proofs.Numeral.Kinds
import Gleaner.Proofs.Token.Language
import Gleaner.Proofs.Token.Fields
import Gleaner.Proofs.Token.Grammar
import Gleaner.Proofs.Line.Pieces
import Gleaner.Proofs.Line.Cutting
import Gleaner.Proofs.Line.Quoting
import Gleaner.Proofs.Line.Spans
import Gleaner.Proofs.Line.Faults
import Gleaner.Proofs.Line.Induction
import Gleaner.Proofs.Line.Slots
import Gleaner.Proofs.Line.Boundary
import Gleaner.Proofs.Line.Alone
import Gleaner.Proofs.Line.Meaning
import Gleaner.Proofs.Line.Tokens
import Gleaner.Proofs.Line.Columns
import Gleaner.Proofs.Numeral.Words
import Gleaner.Proofs.Line.Runs
import Gleaner.Proofs.Line.Rows
import Gleaner.Proofs.Line.Sequences
import Gleaner.Proofs.Layout.Captures
import Gleaner.Proofs.Layout.Outlines
import Gleaner.Proofs.Layout.Faults
import Gleaner.Proofs.Layout.Alike
import Gleaner.Proofs.Layout.Loosening
import Gleaner.Proofs.Json.Fronts
import Gleaner.Proofs.Json.Text
import Gleaner.Proofs.Json.Tokens
import Gleaner.Proofs.Json.Scalars
import Gleaner.Proofs.Json.Trees
import Gleaner.Proofs.Json.Arranging
import Gleaner.Proofs.Layout.Descriptions
import Gleaner.Proofs.Layout.Decoding
import Gleaner.Proofs.Layout.Rearranging
import Gleaner.Proofs.Layout.Depth
import Gleaner.Proofs.Layout.Sessions
import Gleaner.Proofs.Layout.Shape
import Gleaner.Proofs.Layout.Framing
import Gleaner.Proofs.Layout.Bodies
import Gleaner.Proofs.Layout.Runs
import Gleaner.Proofs.Layout.Tables
import Gleaner.Proofs.Layout.Coverage
import Gleaner.Proofs.Layout.Reading
import Gleaner.Proofs.Layout.Numbering
import Gleaner.Proofs.Capture.Limits
import Gleaner.Proofs.Capture.Modes
import Gleaner.Proofs.Capture.Schema
import Gleaner.Proofs.Capture.Columns
import Gleaner.Proofs.Capture.Stacking
import Gleaner.Proofs.CommandLine.Loading
import Gleaner.Proofs.CommandLine.Printing
import Gleaner.Proofs.CommandLine.Words
import Gleaner.Proofs.CommandLine.Mixing
