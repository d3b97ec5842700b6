/-!
# Lexer configurations

* `CommentType`, `StringType`, `Symbol`, `TerminalPattern`: what a configuration lists.
* **`LexerConfig`**: a configuration as its author writes it. It is a plain value, and may be
  invalid: `LexerConfig.compile` tells.
* `LexerConfig.addSymbol` and the like: building a configuration step by step.
-/

namespace ParserKit

/-- A pair of comment delimiters. A nested comment may contain comments of its own type. -/
structure CommentType where
  start : String
  stop : String
  nested : Bool := false
deriving DecidableEq

/-- A quoted string: the type tag of its tokens, the delimiter at both ends, and a sequence inside
that never closes it. -/
structure StringType where
  name : String
  delimiter : String
  escape : Option String := none
deriving DecidableEq

/-- A sequence that is a token wherever it occurs in a span. -/
structure Symbol where
  sequence : String
  name : String
deriving DecidableEq

/-- A type tag for the spans that match a pattern. -/
structure TerminalPattern where
  pattern : String
  name : String
deriving DecidableEq

/-- A lexer configuration. Each list is in order of declaration. -/
structure LexerConfig where
  whitespace : String := " \t\r\n"
  caseSensitive : Bool := true
  multiType : Bool := false
  comments : List CommentType := []
  strings : List StringType := []
  symbols : List Symbol := []
  keywords : List String := []
  terminals : List TerminalPattern := []
deriving DecidableEq

def stringName : String := "STRING"

namespace LexerConfig

instance : Inhabited LexerConfig := ⟨{}⟩

def setWhitespace (c : LexerConfig) (chars : String) : LexerConfig := { c with whitespace := chars }

def setCaseSensitive (c : LexerConfig) (value : Bool) : LexerConfig :=
  { c with caseSensitive := value }

def setMultiType (c : LexerConfig) (value : Bool) : LexerConfig := { c with multiType := value }

def addComment (c : LexerConfig) (start stop : String) (nested : Bool) : LexerConfig :=
  { c with comments := c.comments ++ [⟨start, stop, nested⟩] }

def addString (c : LexerConfig) (name delimiter : String) (escape : Option String) : LexerConfig :=
  { c with strings := c.strings ++ [⟨name, delimiter, escape⟩] }

def addSymbol (c : LexerConfig) (sequence name : String) : LexerConfig :=
  { c with symbols := c.symbols ++ [⟨sequence, name⟩] }

/-- Adds a keyword after the others. Its type tag is its upper-case form. -/
def addKeyword (c : LexerConfig) (keyword : String) : LexerConfig :=
  { c with keywords := c.keywords ++ [keyword] }

def addTerminal (c : LexerConfig) (pattern name : String) : LexerConfig :=
  { c with terminals := c.terminals ++ [⟨pattern, name⟩] }

end LexerConfig

end ParserKit
