import ParserKit.Grammar.Parse
import ParserKit.Pattern.Parse

/-!
# Parsers

* `ParserError`: why a parse from characters to a tree fails, with its wording in
  `ParserError.message`.
* **`parseSource`**: the tree of what a source yields, by a lexer configuration and a grammar.
* `Parser`: a configuration and a grammar together with the error of the last parse.

All this can be done with any engine for patterns. Where none is named, it is `Expr.engine`.
-/

namespace ParserKit

/-- Why a parse from characters to a tree fails. -/
inductive ParserError where
  | lexer (e : LexerError)
  | source (e : SourceError)
  | parse (e : ParseError)
deriving DecidableEq

def ParserError.message : ParserError → String
  | .lexer e => "invalid lexer configuration: " ++ e.message
  | .source e => "failed to read input: " ++ e.message
  | .parse e => e.message

section Engine

variable [PatternEngine]

/-- **The tree of what a source yields.** The configuration is checked first, then the source is
acquired, and then its tokens are parsed on demand. There is no answer for a left recursion. -/
def parseSource (lexer : LexerConfig) (grammar : Grammar) (source : Source) :
    Option (Except ParserError Node) :=
  match lexer.tokenizer source with
  | .error e => some (.error (.lexer e))
  | .ok tokenizer =>
    match (TokenStream.ofInput (.tokenizer tokenizer)).acquire with
    | (.error e, _) => some (.error (.source e))
    | (.ok (), stream) =>
      (grammar.parse stream).map fun (result, _) => result.mapError ParserError.parse

end Engine

/-- A lexer configuration and a grammar, and the error of the last parse if it failed. -/
structure Parser where
  lexer : LexerConfig := {}
  grammar : Grammar := {}
  lastError : Option ParserError := none

namespace Parser

variable [PatternEngine]

/-- Parses what a source yields; the error of the last parse stays as it is. -/
def parse (p : Parser) (source : Source) : Option (Except ParserError Node) :=
  parseSource p.lexer p.grammar source

def record (p : Parser) (result : Except ParserError Node) : Option Node × Parser :=
  match result with
  | .ok node => (some node, { p with lastError := none })
  | .error e => (none, { p with lastError := some e })

/-- Parses what a source yields, and keeps the error if there is one. -/
def parseFrom (p : Parser) (source : Source) : Option (Option Node × Parser) :=
  (p.parse source).map p.record

def parseText (p : Parser) (text : String) : Option (Option Node × Parser) :=
  p.parseFrom (.ofString text)

def parseFile (p : Parser) (entry : FileEntry) : Option (Option Node × Parser) :=
  p.parseFrom (.ofFile entry)

def tokenize (p : Parser) (text : String) : Except ParserError (List Token) :=
  (p.lexer.tokenize text).mapError ParserError.lexer

/-- The wording of the last error, which is empty if the last parse succeeded. -/
def errorText (p : Parser) : String :=
  match p.lastError with
  | some e => e.message
  | none => ""

end Parser

instance : PatternEngine := Expr.engine

end ParserKit
