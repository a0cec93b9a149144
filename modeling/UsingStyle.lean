import UsingStyle.Choice
import UsingStyle.Codecs
import UsingStyle.CommandLine.Argument
import UsingStyle.CommandLine.Flag
import UsingStyle.CommandLine.Integer
import UsingStyle.CommandLine.Request
import UsingStyle.CommandLine.Usage
import UsingStyle.Directive
import UsingStyle.Directive.Clause
import UsingStyle.Directive.Scan
import UsingStyle.Directive.Scope
import UsingStyle.Encoding
import UsingStyle.Encoding.Marked
import UsingStyle.Encoding.SingleByte
import UsingStyle.Encoding.Utf16
import UsingStyle.Encoding.Utf32
import UsingStyle.Encoding.Utf8
import UsingStyle.FileTree
import UsingStyle.FileTree.Select
import UsingStyle.Finding
import UsingStyle.Inspection
import UsingStyle.Inspection.Error
import UsingStyle.Inspection.File
import UsingStyle.LogLevel
import UsingStyle.Main
import UsingStyle.Marking
import UsingStyle.Order
import UsingStyle.Output
import UsingStyle.Path
import UsingStyle.Pattern
import UsingStyle.Pattern.CharSet
import UsingStyle.Pattern.Wildcard
import UsingStyle.Pool
import UsingStyle.Proofs.Directive.Bodies
import UsingStyle.Proofs.Directive.Braces
import UsingStyle.Proofs.Directive.Concatenation
import UsingStyle.Proofs.Directive.Derivation
import UsingStyle.Proofs.Directive.Dissection
import UsingStyle.Proofs.Directive.Extent
import UsingStyle.Proofs.Directive.Grammar
import UsingStyle.Proofs.Directive.Literals
import UsingStyle.Proofs.Directive.Namespaces
import UsingStyle.Proofs.Directive.Parse
import UsingStyle.Proofs.Directive.Printed
import UsingStyle.Proofs.Directive.Recognition
import UsingStyle.Proofs.Directive.Roles
import UsingStyle.Proofs.Directive.RoundTrip
import UsingStyle.Proofs.Directive.Source
import UsingStyle.Proofs.Directive.Spans
import UsingStyle.Proofs.Directive.Target
import UsingStyle.Proofs.Directive.Terminal
import UsingStyle.Proofs.Directive.Trailing
import UsingStyle.Proofs.Directive.Visit
import UsingStyle.Proofs.Directive.WrittenNames
import UsingStyle.Proofs.Encoding
import UsingStyle.Proofs.FileTree.Selection
import UsingStyle.Proofs.FileTree.Spellings
import UsingStyle.Proofs.Inspection.Attempts
import UsingStyle.Proofs.Inspection.Conformance
import UsingStyle.Proofs.Inspection.Files
import UsingStyle.Proofs.Inspection.Findings
import UsingStyle.Proofs.Inspection.Messages
import UsingStyle.Proofs.Inspection.Misplaced
import UsingStyle.Proofs.Inspection.Places
import UsingStyle.Proofs.Inspection.Records
import UsingStyle.Proofs.Inspection.Reference
import UsingStyle.Proofs.Inspection.Registry
import UsingStyle.Proofs.Json.Reading
import UsingStyle.Proofs.Json.Tokens
import UsingStyle.Proofs.Marking
import UsingStyle.Proofs.Path
import UsingStyle.Proofs.Pool
import UsingStyle.Proofs.Regex
import UsingStyle.Proofs.Report.Json
import UsingStyle.Proofs.Report.Plain
import UsingStyle.Proofs.Report.Reading
import UsingStyle.Proofs.Run.Escapes
import UsingStyle.Proofs.Run.InvalidSettings
import UsingStyle.Proofs.Run.Stages
import UsingStyle.Proofs.Run.Verdict
import UsingStyle.Proofs.Settings
import UsingStyle.Proofs.Text.Decimal
import UsingStyle.Proofs.Text.LineEnds
import UsingStyle.Proofs.Text.Lines
import UsingStyle.Proofs.Text.Quote
import UsingStyle.Proofs.Token.Concatenation
import UsingStyle.Proofs.Token.Contents
import UsingStyle.Proofs.Token.Endings
import UsingStyle.Proofs.Token.Kinds
import UsingStyle.Proofs.Token.Literals
import UsingStyle.Proofs.Token.Openers
import UsingStyle.Proofs.Token.Partition
import UsingStyle.Proofs.Token.Pattern
import UsingStyle.Proofs.Token.Positions
import UsingStyle.Proofs.Token.Preprocessor
import UsingStyle.Proofs.Token.RawStrings
import UsingStyle.Proofs.Token.Restart
import UsingStyle.Proofs.Token.Scan
import UsingStyle.Proofs.Token.Scanner
import UsingStyle.Proofs.Token.Spelling
import UsingStyle.Proofs.Token.Tiling
import UsingStyle.Record
import UsingStyle.Report
import UsingStyle.Report.Json
import UsingStyle.Report.Plain
import UsingStyle.Report.Read
import UsingStyle.Run
import UsingStyle.Settings
import UsingStyle.Settings.EnvFile
import UsingStyle.Settings.Reference
import UsingStyle.SortKey
import UsingStyle.Text.Blank
import UsingStyle.Text.ByteOrderMark
import UsingStyle.Text.Decimal
import UsingStyle.Text.Hex
import UsingStyle.Text.Literal
import UsingStyle.Text.Printable
import UsingStyle.Text.Quote
import UsingStyle.Text.Range
import UsingStyle.Text.Word
import UsingStyle.Token
import UsingStyle.Token.Lexeme
import UsingStyle.Token.Lexer
import UsingStyle.Untyped.Check
import UsingStyle.Untyped.IntegerText
import UsingStyle.Untyped.Problem
import UsingStyle.Untyped.Value
