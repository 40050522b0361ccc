import ModalHighlight.Byte
import ModalHighlight.Cursor
import ModalHighlight.Span
import ModalHighlight.Kind
import ModalHighlight.Search
import ModalHighlight.KeywordTable
import ModalHighlight.Lexeme.Fixed
import ModalHighlight.Lexeme.Number
import ModalHighlight.Lexeme.Operator
import ModalHighlight.Lexeme.Quote
import ModalHighlight.Lexeme.Word
import ModalHighlight.Matcher
import ModalHighlight.Grammar
import ModalHighlight.Flint
import ModalHighlight.Language
import ModalHighlight.Diagnostic
import ModalHighlight.Outline
import ModalHighlight.Token
import ModalHighlight.Scan.State
import ModalHighlight.Scan.Action
import ModalHighlight.Scan.Run
import ModalHighlight.Scan.Numbering
import ModalHighlight.Highlighter
import ModalHighlight.Html
import ModalHighlight.Stats
import ModalHighlight.Json
import ModalHighlight.Log.Event
import ModalHighlight.Log.Pattern.Expression
import ModalHighlight.Log.Pattern.Verbose
import ModalHighlight.Log.Pattern.Element
import ModalHighlight.Log.Pattern.Bracket
import ModalHighlight.Log.Pattern.Reader
import ModalHighlight.Log.Pattern.Support
import ModalHighlight.Log.Pattern
import ModalHighlight.Log.Filter
import ModalHighlight.Text.Alphabetic
import ModalHighlight.Text.Class
import ModalHighlight.Text.GraphemeExtend
import ModalHighlight.Text.Hexadecimal
import ModalHighlight.Text.Numeral
import ModalHighlight.Text.Numeric
import ModalHighlight.Text.Padding
import ModalHighlight.Text.Quoted
import ModalHighlight.Text.Split
import ModalHighlight.Text.Unprintable
import ModalHighlight.CommandLine.Arguments
import ModalHighlight.CommandLine.FileName
import ModalHighlight.CommandLine.Input
import ModalHighlight.CommandLine.Report
import ModalHighlight.CommandLine.Run
import ModalHighlight.Scripting.Value
import ModalHighlight.Scripting.Interface
import ModalHighlight.Main
import ModalHighlight.Proofs.Text.Whole
import ModalHighlight.Proofs.Lexeme.Cut
import ModalHighlight.Proofs.Grammar.Lawful
import ModalHighlight.Proofs.Outline.Tiling
import ModalHighlight.Proofs.Outline.Slices
import ModalHighlight.Proofs.Scan.Decision
import ModalHighlight.Proofs.Scan.Invariant
import ModalHighlight.Proofs.Scan.Completion
import ModalHighlight.Proofs.Scan.Numbering
import ModalHighlight.Proofs.Token.Segments
import ModalHighlight.Proofs.Token.Runs
import ModalHighlight.Proofs.Token.Coverage
import ModalHighlight.Proofs.Outline.Forest
import ModalHighlight.Proofs.Html.Reading
import ModalHighlight.Proofs.Html.Marks
import ModalHighlight.Proofs.Html.Merge
import ModalHighlight.Proofs.Html.Agreement
import ModalHighlight.Proofs.Html.Lossless
import ModalHighlight.Proofs.Html.Nesting
import ModalHighlight.Proofs.Html.Elements
import ModalHighlight.Proofs.Grammar.Kinds
import ModalHighlight.Proofs.Scan.Marks
import ModalHighlight.Proofs.Scan.Options
import ModalHighlight.Proofs.Token.Condensed
import ModalHighlight.Proofs.Outline.Nests
import ModalHighlight.Proofs.Scan.Closing
import ModalHighlight.Proofs.Scan.Reports
import ModalHighlight.Proofs.Outline.Finer
import ModalHighlight.Proofs.Scan.Likeness
import ModalHighlight.Proofs.Scan.Stops
import ModalHighlight.Proofs.Lexeme.Line
import ModalHighlight.Proofs.Grammar.Lines
import ModalHighlight.Proofs.Scan.Onward
import ModalHighlight.Proofs.Scan.Beginnings
import ModalHighlight.Proofs.Scan.Behind
import ModalHighlight.Proofs.Token.Seam
import ModalHighlight.Proofs.Scan.Progress
import ModalHighlight.Proofs.Scan.Growth
import ModalHighlight.Proofs.Outline.Conforms
import ModalHighlight.Proofs.Scan.Written
import ModalHighlight.Proofs.Grammar.Markup
import ModalHighlight.Proofs.Scan.Markup
import ModalHighlight.Proofs.Scan.Bodies
import ModalHighlight.Proofs.Scan.Conformity
import ModalHighlight.Proofs.Outline.Chains
import ModalHighlight.Proofs.Token.Neighbours
import ModalHighlight.Proofs.Scan.Plain
import ModalHighlight.Proofs.Scan.Segments
import ModalHighlight.Proofs.Scan.Faithful
import ModalHighlight.Proofs.Scan.Coalescing
import ModalHighlight.Proofs.Outline.Occurs
import ModalHighlight.Proofs.Token.Single
import ModalHighlight.Proofs.Token.Alone
import ModalHighlight.Proofs.Scan.Origins
import ModalHighlight.Proofs.Text.Reading
import ModalHighlight.Proofs.Scan.Ended
import ModalHighlight.Proofs.Scan.Content
import ModalHighlight.Proofs.Scan.Comments
import ModalHighlight.Proofs.Scan.Strings
import ModalHighlight.Proofs.Scan.RawStrings
import ModalHighlight.Proofs.Scan.Interpolation
import ModalHighlight.Proofs.Lexeme.Boundary
import ModalHighlight.Proofs.Grammar.Words
import ModalHighlight.Proofs.Scan.Words
import ModalHighlight.Proofs.Scan.Headers
import ModalHighlight.Proofs.Scan.Slots
import ModalHighlight.Proofs.Scan.Ledger
import ModalHighlight.Proofs.Scan.Rollback
import ModalHighlight.Proofs.Lexeme.Spelling
import ModalHighlight.Proofs.Grammar.Spelling
import ModalHighlight.Proofs.Scan.Spelling
import ModalHighlight.Proofs.Search
import ModalHighlight.Proofs.Token.Lookup
import ModalHighlight.Proofs.Lexeme.Longest
import ModalHighlight.Proofs.Lexeme.Numerals
import ModalHighlight.Proofs.Lexeme.Characters
import ModalHighlight.Proofs.Grammar.Reserved
import ModalHighlight.Proofs.Lexeme.Joined
import ModalHighlight.Proofs.Scan.Classified
import ModalHighlight.Proofs.Outline.Depth
import ModalHighlight.Proofs.Stats
import ModalHighlight.Proofs.Text.Numeral
import ModalHighlight.Proofs.CommandLine.Groups
import ModalHighlight.Proofs.CommandLine.Choices
import ModalHighlight.Proofs.CommandLine.Reading
import ModalHighlight.Proofs.Text.ByOffset
import ModalHighlight.Proofs.Lexeme.ByOffset
import ModalHighlight.Proofs.Matcher
import ModalHighlight.Proofs.KeywordTable
import ModalHighlight.Proofs.Grammar.Building
