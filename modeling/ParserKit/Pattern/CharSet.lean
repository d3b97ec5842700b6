import ParserKit.Text.Class

/-!
# Sets of characters in patterns

* `CharSet`: a set of characters, as ranges.
* `CharSet.single`, `CharSet.all`, `CharSet.ofRange`: the simplest sets.
* `CharSet.fold`: the caseless closure of a set; `counterparts` are the characters that a caseless
  pattern does not tell apart from a given one.
* `CharSet.ofClassName`: the named ASCII classes, such as `alpha`.
-/

namespace ParserKit

abbrev CharSet := Ranges

/-- The characters that fold to the same letter as `c` does, among the ASCII letters and the two
characters beyond ASCII that fold to one of them: the long s and the kelvin sign. -/
def counterparts (c : Char) : List Char :=
  if c = 'k' ∨ c = 'K' ∨ c = '\u212A' then ['k', 'K', '\u212A']
  else if c = 's' ∨ c = 'S' ∨ c = '\u017F' then ['s', 'S', '\u017F']
  else if c.isUpper then [c, c.toLower]
  else if c.isLower then [c, c.toUpper]
  else [c]

namespace CharSet

def mem (s : CharSet) (c : Char) : Bool := s.covers c.toNat

def ofRange (lo hi : Char) : CharSet := [(lo.toNat, hi.toNat)]

def single (c : Char) : CharSet := ofRange c c

def all : CharSet := Ranges.complement []

def ofRanges (ranges : List (Char × Char)) : CharSet :=
  ranges.foldl (fun s r => s.union (ofRange r.1 r.2)) []

/-- The complement of `s` if `negated` holds, else `s`. -/
def negateIf (negated : Bool) (s : CharSet) : CharSet := if negated then s.complement else s

/-- The characters that fold to another one. -/
def foldable : List Char :=
  "ABCDEFGHIJKLMNOPQRSTUVWXYZabcdefghijklmnopqrstuvwxyz\u017F\u212A".toList

/-- The caseless closure of a set. -/
def fold (s : CharSet) : CharSet :=
  s.union ((foldable.filter fun c => (counterparts c).any s.mem).flatMap single)

/-- The caseless closure of `s` if `flag` holds, else `s`. -/
def foldIf (flag : Bool) (s : CharSet) : CharSet := if flag then s.fold else s

/-- The named classes; all of them contain ASCII characters only. -/
def ofClassName : String → Option CharSet
  | "alnum" => some (ofRanges [('0', '9'), ('A', 'Z'), ('a', 'z')])
  | "alpha" => some (ofRanges [('A', 'Z'), ('a', 'z')])
  | "ascii" => some (ofRange '\x00' '\x7F')
  | "blank" => some (ofRanges [('\t', '\t'), (' ', ' ')])
  | "cntrl" => some (ofRanges [('\x00', '\x1F'), ('\x7F', '\x7F')])
  | "digit" => some (ofRange '0' '9')
  | "graph" => some (ofRange '!' '~')
  | "lower" => some (ofRange 'a' 'z')
  | "print" => some (ofRange ' ' '~')
  | "punct" => some (ofRanges [('!', '/'), (':', '@'), ('[', '\x60'), ('\x7B', '~')])
  | "space" => some (ofRanges [('\t', '\r'), (' ', ' ')])
  | "upper" => some (ofRange 'A' 'Z')
  | "word" => some (ofRanges [('0', '9'), ('A', 'Z'), ('_', '_'), ('a', 'z')])
  | "xdigit" => some (ofRanges [('0', '9'), ('A', 'F'), ('a', 'f')])
  | _ => none

end CharSet

end ParserKit
