import ParserKit.Cursor
import ParserKit.Expected
import ParserKit.Grammar.Attempt
import ParserKit.Grammar.Context
import ParserKit.Grammar.Display
import ParserKit.Grammar.Element
import ParserKit.Grammar.Parse
import ParserKit.Json.Basic
import ParserKit.Json.Printer
import ParserKit.Json.Reader
import ParserKit.Lexer.Classify
import ParserKit.Lexer.Config
import ParserKit.Lexer.ConfigJson
import ParserKit.Lexer.Rules
import ParserKit.Lexer.Scan
import ParserKit.Lexer.Tokenizer
import ParserKit.Lookahead
import ParserKit.Node.Basic
import ParserKit.Node.Markup
import ParserKit.Node.ToJson
import ParserKit.Node.Walk
import ParserKit.OrderedMap
import ParserKit.Panic
import ParserKit.ParseError
import ParserKit.Parser
import ParserKit.Pattern.Assertion
import ParserKit.Pattern.Bracket
import ParserKit.Pattern.CharSet
import ParserKit.Pattern.Depth
import ParserKit.Pattern.Engine
import ParserKit.Pattern.Escape
import ParserKit.Pattern.Expr
import ParserKit.Pattern.Fault
import ParserKit.Pattern.Form
import ParserKit.Pattern.Item
import ParserKit.Pattern.Parse
import ParserKit.Pattern.Rest
import ParserKit.Pattern.Tally
import ParserKit.Pattern.Weight
import ParserKit.Position
import ParserKit.Source
import ParserKit.Stream.Basic
import ParserKit.Stream.Input
import ParserKit.Text.Additions
import ParserKit.Text.Bytes
import ParserKit.Text.Capitals
import ParserKit.Text.Class
import ParserKit.Text.Hex
import ParserKit.Text.Invisible
import ParserKit.Text.Letters
import ParserKit.Text.Marks
import ParserKit.Text.Numbers
import ParserKit.Text.Quoted
import ParserKit.Text.Ranges
import ParserKit.Text.Unassigned
import ParserKit.Text.Upper
import ParserKit.Token
import ParserKit.Proofs.Json.Rendering
import ParserKit.Proofs.Lexer.Documents
import ParserKit.Proofs.Lexer.Remaining
import ParserKit.Proofs.Stream.Remaining
import ParserKit.Proofs.Stream.Savepoints
import ParserKit.Proofs.Stream.Expectations
import ParserKit.Proofs.Stream.Window
import ParserKit.Proofs.Grammar.Frames
import ParserKit.Proofs.Grammar.Lockstep
import ParserKit.Proofs.Grammar.Meaning
import ParserKit.Proofs.Grammar.Grouping
import ParserKit.Proofs.Grammar.Repetition
import ParserKit.Proofs.Grammar.Recognize
import ParserKit.Proofs.Grammar.Refinement
import ParserKit.Proofs.Lexer.Ahead
import ParserKit.Proofs.Lexer.WholeText
import ParserKit.Proofs.Lexer.Requests
import ParserKit.Proofs.Lexer.Layout
import ParserKit.Proofs.Lexer.Lossless
import ParserKit.Proofs.Grammar.Depth
import ParserKit.Proofs.Grammar.LeftRecursion
import ParserKit.Proofs.Grammar.Agreement
import ParserKit.Proofs.Streaming
import ParserKit.Proofs.Grammar.Spelling
import ParserKit.Proofs.Lexer.Relocation
import ParserKit.Proofs.Lexer.Separation
import ParserKit.Proofs.Lexer.Reopening
import ParserKit.Proofs.Grammar.Failures
import ParserKit.Proofs.Grammar.Registration
import ParserKit.Proofs.Pattern.Matching
import ParserKit.Proofs.Pattern.Forms
import ParserKit.Proofs.Pattern.Reading
import ParserKit.Proofs.Pattern.Classes
import ParserKit.Proofs.Pattern.Items
import ParserKit.Proofs.Pattern.Bounds
import ParserKit.Proofs.Pattern.Frame
import ParserKit.Proofs.Pattern.Language
import ParserKit.Proofs.Lexer.Checked
import ParserKit.Proofs.Lexer.Stretches
import ParserKit.Proofs.Lexer.Symbols
import ParserKit.Proofs.Lexer.Splitting
import ParserKit.Proofs.Lexer.Declarations
import ParserKit.Proofs.Lexer.Keywords
import ParserKit.Proofs.Lexer.Tagging
import ParserKit.Proofs.Lexer.Comments
import ParserKit.Proofs.Node.Tags
import ParserKit.Proofs.Node.Decoding
import ParserKit.Proofs.Node.WellFormed
import ParserKit.Proofs.Operations
import ParserKit.Proofs.OrderedMap
import ParserKit.Proofs.Json.Same
import ParserKit.Proofs.Lexer.Quoting
import ParserKit.Proofs.Lexer.Capacity
import ParserKit.Proofs.Lexer.Validation
import ParserKit.Proofs.Node.Trees
import ParserKit.Proofs.Node.Documents
import ParserKit.Proofs.Node.Taking
import ParserKit.Proofs.Node.Tours
import ParserKit.Proofs.Node.Walking
