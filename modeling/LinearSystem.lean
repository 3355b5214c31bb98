import LinearSystem.Text.CharClass
import LinearSystem.Text.Lines
import LinearSystem.Text.Order
import LinearSystem.Text.Quoted
import LinearSystem.Text.Unprintable
import LinearSystem.Decimal.Basic
import LinearSystem.Decimal.Layout
import LinearSystem.Decimal.Numeral
import LinearSystem.Decimal.Shortest
import LinearSystem.Binary64
import LinearSystem.Location
import LinearSystem.Relation
import LinearSystem.Token.Basic
import LinearSystem.Token.Chain
import LinearSystem.Token.Lexeme
import LinearSystem.Token.Literal
import LinearSystem.Token.Refusal
import LinearSystem.Token.Scanner
import LinearSystem.Token.Stream
import LinearSystem.Grammar.Check
import LinearSystem.Grammar.Inspection
import LinearSystem.Grammar.Rules
import LinearSystem.Symbol
import LinearSystem.Symbol.Interner
import LinearSystem.Equation.Basic
import LinearSystem.Equation.Builder
import LinearSystem.Equation.Interned
import LinearSystem.Equation.Json
import LinearSystem.Equation.LinearForm
import LinearSystem.Equation.Printer
import LinearSystem.Diagnostic
import LinearSystem.Source
import LinearSystem.Command.Options
import LinearSystem.Command.Run
import LinearSystem.Scenario
import LinearSystem.Main
import LinearSystem.Proofs.Text.LineEnds
import LinearSystem.Proofs.Text.Lines
import LinearSystem.Proofs.Text.Order
import LinearSystem.Proofs.Text.Slice
import LinearSystem.Proofs.Decimal.Positional
import LinearSystem.Proofs.Decimal.ReadBack
import LinearSystem.Proofs.Decimal.Reading
import LinearSystem.Proofs.Decimal.Threshold
import LinearSystem.Proofs.Binary64.Arithmetic
import LinearSystem.Proofs.Binary64.Overflow
import LinearSystem.Proofs.Binary64.Pattern
import LinearSystem.Proofs.Symbol.Growth
import LinearSystem.Proofs.Symbol.Interner
import LinearSystem.Proofs.Symbol.Table
import LinearSystem.Proofs.Lexical.Calls
import LinearSystem.Proofs.Lexical.Commas
import LinearSystem.Proofs.Lexical.Layout
import LinearSystem.Proofs.Lexical.Lexeme
import LinearSystem.Proofs.Lexical.LineEnds
import LinearSystem.Proofs.Lexical.Listing
import LinearSystem.Proofs.Lexical.Literal
import LinearSystem.Proofs.Lexical.Locations
import LinearSystem.Proofs.Lexical.Offsets
import LinearSystem.Proofs.Lexical.Places
import LinearSystem.Proofs.Lexical.Products
import LinearSystem.Proofs.Lexical.Progress
import LinearSystem.Proofs.Lexical.Reading
import LinearSystem.Proofs.Lexical.Refusal
import LinearSystem.Proofs.Lexical.Rendering
import LinearSystem.Proofs.Lexical.Scanner
import LinearSystem.Proofs.Lexical.Stream
import LinearSystem.Proofs.Grammar.Acceptance
import LinearSystem.Proofs.Grammar.Language
import LinearSystem.Proofs.Grammar.Recognition
import LinearSystem.Proofs.Chain.Comparison
import LinearSystem.Proofs.Chain.Earliest
import LinearSystem.Proofs.Chain.Head
import LinearSystem.Proofs.Chain.Inspection
import LinearSystem.Proofs.Chain.Linked
import LinearSystem.Proofs.Chain.Products
import LinearSystem.Proofs.Chain.Unfinished
import LinearSystem.Proofs.Chain.Walk
import LinearSystem.Proofs.Equation.Agreement
import LinearSystem.Proofs.Equation.Comparison
import LinearSystem.Proofs.Equation.Entries
import LinearSystem.Proofs.Equation.Faultless
import LinearSystem.Proofs.Equation.Finite
import LinearSystem.Proofs.Equation.History
import LinearSystem.Proofs.Equation.LineEnds
import LinearSystem.Proofs.Equation.Meaning
import LinearSystem.Proofs.Equation.Naming
import LinearSystem.Proofs.Equation.Numerals
import LinearSystem.Proofs.Equation.Parsed
import LinearSystem.Proofs.Equation.Parts
import LinearSystem.Proofs.Equation.Printed
import LinearSystem.Proofs.Equation.Products
import LinearSystem.Proofs.Equation.RoundTrip
import LinearSystem.Proofs.Equation.Separate
import LinearSystem.Proofs.Equation.Source
import LinearSystem.Proofs.Equation.Stream
import LinearSystem.Proofs.Equation.Sums
import LinearSystem.Proofs.Equation.Symbols
import LinearSystem.Proofs.Equation.Terms
import LinearSystem.Proofs.Equation.Written
import LinearSystem.Proofs.Diagnostic.Caret
import LinearSystem.Proofs.Diagnostic.Message
import LinearSystem.Proofs.Diagnostic.Report
import LinearSystem.Proofs.Command.Modes
import LinearSystem.Proofs.Command.Status
