import ParserKit.Position

/-!
# Tokens

* `Token`: a piece of text with its type tags and its extent.
* `Token.types`: the tags in the order in which they were given; there is always a first one, and
  `Token.addType` never repeats one.
* `Token.same`: equality of tokens, in which the order of the tags does not count.
-/

namespace ParserKit

/-- The tag of a token that no rule of a configuration describes, and the name of the node that a
terminal yields. -/
def terminalName : String := "terminal"

/-- A piece of text. `start` and `stop` are the places of its first and its last character. -/
structure Token where
  content : String
  primaryType : String
  furtherTypes : List String
  start : Position
  stop : Position
deriving DecidableEq

namespace Token

def ofType (content type : String) (start stop : Position) : Token :=
  ⟨content, type, [], start, stop⟩

/-- The type tags, oldest first. -/
def types (t : Token) : List String := t.primaryType :: t.furtherTypes

def hasType (t : Token) (type : String) : Bool := t.types.contains type

/-- Adds a type tag, unless the token carries it already. -/
def addType (t : Token) (type : String) : Token :=
  if t.hasType type then t else { t with furtherTypes := t.furtherTypes ++ [type] }

def setType (t : Token) (type : String) : Token :=
  { t with primaryType := type, furtherTypes := [] }

def same (t u : Token) : Bool :=
  t.content == u.content && t.start == u.start && t.stop == u.stop &&
    t.types.length == u.types.length && t.types.all u.hasType

def display (t : Token) : String :=
  "#[" ++ ", ".intercalate t.types ++ "]: " ++ t.content ++
    " @ (" ++ toString t.start.line ++ ", " ++ toString t.start.column ++ ")"

end Token

end ParserKit
