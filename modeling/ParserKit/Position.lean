/-!
# Positions in a text

* `Position`: line, column and offset of one character.
* `Position.start`, `Position.advance`: where a text begins, and where the next character lies.
* `Position.display`: how a position is shown in messages.

Positions are ordered by line, then column, then offset.
-/

namespace ParserKit

/-- The place of a character: line and column count from one, the offset from zero. -/
structure Position where
  line : Nat
  column : Nat
  offset : Nat
deriving DecidableEq

namespace Position

def start : Position := ⟨1, 1, 0⟩

instance : Inhabited Position := ⟨start⟩

/-- The place after a character `c` that lies at `p`. -/
def advance (p : Position) (c : Char) : Position :=
  if c = '\n' then ⟨p.line + 1, 1, p.offset + 1⟩ else ⟨p.line, p.column + 1, p.offset + 1⟩

/-- The place after a text whose first character lies at `p`. -/
def advanceOver (p : Position) (text : List Char) : Position := text.foldl advance p

instance : Ord Position where
  compare p q :=
    (compare p.line q.line).then ((compare p.column q.column).then (compare p.offset q.offset))

/-- A position in words; the offset is left out. -/
def display (p : Position) : String :=
  "line " ++ toString p.line ++ ", column " ++ toString p.column

end Position

/-- A character together with its place. -/
structure Located where
  char : Char
  position : Position
deriving DecidableEq

abbrev Span := List Located

def Span.chars (s : Span) : List Char := s.map Located.char

def Span.content (s : Span) : String := String.ofList s.chars

/-- Gives each character of a text its place, the first one lying at `p`. -/
def locate (p : Position) : List Char → Span
  | [] => []
  | c :: cs => ⟨c, p⟩ :: locate (p.advance c) cs

end ParserKit
