import ParserKit.Lexer.Config
import ParserKit.Pattern.Engine
import ParserKit.Text.Upper

/-!
# Lexical rules

A configuration is checked before it is used. What comes out are `Rules`, in which no delimiter and
no symbol is empty and every pattern has been accepted by the engine.

* `LexerError`: what can be wrong with a configuration, with its wording in `LexerError.message`.
* `Marker`: a sequence of at least one character.
* `Rules`, `Rules.lookahead`: the checked configuration, and how many characters its markers need.
* **`LexerConfig.compile`**: checks a configuration. Of several faults it reports the first one:
  comments, strings, symbols and keywords are checked in this order, and then the patterns.
-/

namespace ParserKit

/-! ## Errors -/

/-- The sequences of a configuration that must not be empty. -/
inductive SequenceKind where
  | commentStart
  | commentStop
  | stringDelimiter
  | escape
  | symbol
  | keyword
deriving DecidableEq

def SequenceKind.display : SequenceKind → String
  | .commentStart => "comment start sequence"
  | .commentStop => "comment end sequence"
  | .stringDelimiter => "string delimiter"
  | .escape => "escape sequence"
  | .symbol => "symbol"
  | .keyword => "keyword"

/-- What can be wrong with a configuration. -/
inductive LexerError where
  | emptySequence (kind : SequenceKind)
  | invalidPattern (pattern : String) (fault : PatternError)
deriving DecidableEq

def LexerError.message : LexerError → String
  | .emptySequence kind => "empty " ++ kind.display ++ " is not allowed"
  | .invalidPattern pattern fault =>
    "invalid terminal pattern \x60" ++ pattern ++ "\x60: " ++ fault.message

/-! ## Rules -/

/-- A sequence of at least one character. -/
structure Marker where
  first : Char
  more : List Char
deriving DecidableEq

namespace Marker

def chars (m : Marker) : List Char := m.first :: m.more

def length (m : Marker) : Nat := m.more.length + 1

/-- A text as a marker, which is an error if the text is empty. -/
def require (kind : SequenceKind) (text : String) : Except LexerError Marker :=
  match text.toList with
  | [] => .error (.emptySequence kind)
  | first :: more => .ok ⟨first, more⟩

end Marker

/-- A comment type whose delimiters are not empty. -/
structure CommentRule where
  start : Marker
  stop : Marker
  nested : Bool
deriving DecidableEq

/-- A string type whose delimiter and escape sequence are not empty. -/
structure StringRule where
  name : String
  delimiter : Marker
  escape : Option Marker
deriving DecidableEq

/-- A symbol that is not empty. -/
structure SymbolRule where
  sequence : Marker
  name : String
deriving DecidableEq

/-- A keyword with the type tag that it gives to a token. -/
structure KeywordRule where
  text : String
  tag : String
deriving DecidableEq

/-- What tells whether a pattern is found in a text, and the type tag for it. -/
structure TerminalRule where
  occursIn : List Char → Bool
  name : String

/-- A configuration that has been checked. -/
structure Rules where
  whitespace : List Char
  caseSensitive : Bool
  multiType : Bool
  comments : List CommentRule
  strings : List StringRule
  symbols : List SymbolRule
  keywords : List KeywordRule
  terminals : List TerminalRule

namespace Rules

def markers (r : Rules) : List Marker :=
  r.comments.flatMap (fun c => [c.start, c.stop]) ++
    r.strings.flatMap (fun s => s.delimiter :: s.escape.toList) ++
    r.symbols.map SymbolRule.sequence

/-- The number of characters that a scanner has to see at once. -/
def lookahead (r : Rules) : Nat := (r.markers.map Marker.length).foldl max 1

def isWhitespace (r : Rules) (c : Char) : Bool := r.whitespace.contains c

end Rules

/-! ## Checking a configuration -/

def CommentType.compile (t : CommentType) : Except LexerError CommentRule := do
  let start ← Marker.require .commentStart t.start
  let stop ← Marker.require .commentStop t.stop
  .ok ⟨start, stop, t.nested⟩

def StringType.compile (t : StringType) : Except LexerError StringRule := do
  let delimiter ← Marker.require .stringDelimiter t.delimiter
  match t.escape with
  | none => .ok ⟨t.name, delimiter, none⟩
  | some escape => do
    let escape ← Marker.require .escape escape
    .ok ⟨t.name, delimiter, some escape⟩

def Symbol.compile (s : Symbol) : Except LexerError SymbolRule := do
  let sequence ← Marker.require .symbol s.sequence
  .ok ⟨sequence, s.name⟩

def compileKeyword (keyword : String) : Except LexerError KeywordRule :=
  if keyword.isEmpty then .error (.emptySequence .keyword) else .ok ⟨keyword, upper keyword⟩

/-- The text of the pattern by which a span is compared with a terminal pattern: the pattern is
written between anchors, so that it has to match from one end of the span to the other. -/
def anchored (pattern : List Char) : List Char := "^(?:".toList ++ pattern ++ ")$".toList

section Engine

variable [PatternEngine]

def TerminalPattern.compile (t : TerminalPattern) : Except LexerError TerminalRule :=
  match PatternEngine.compile (anchored t.pattern.toList) with
  | .ok occursIn => .ok ⟨occursIn, t.name⟩
  | .error fault => .error (.invalidPattern t.pattern fault)

/-- **Checks a configuration.** -/
def LexerConfig.compile (c : LexerConfig) : Except LexerError Rules := do
  let comments ← c.comments.mapM CommentType.compile
  let strings ← c.strings.mapM StringType.compile
  let symbols ← c.symbols.mapM Symbol.compile
  let keywords ← c.keywords.mapM compileKeyword
  let terminals ← c.terminals.mapM TerminalPattern.compile
  .ok ⟨c.whitespace.toList, c.caseSensitive, c.multiType, comments, strings, symbols, keywords,
    terminals⟩

end Engine

end ParserKit
