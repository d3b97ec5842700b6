import ParserKit.Text.Additions
import ParserKit.Text.Letters
import ParserKit.Text.Marks
import ParserKit.Text.Numbers

/-!
# Classes of characters

* `blanks`, `isBlank`: the Unicode property `White_Space`.
* `wordChars`, `isWordChar`: what a word consists of; a word boundary lies between a character that
  has it and one that has not.
* `isLetter`, `isNumeric`: the Unicode properties behind names, in the newer edition.
-/

namespace ParserKit

/-- The white space of all scripts. -/
def blanks : Ranges :=
  [(0x9, 0xD), (0x20, 0x20), (0x85, 0x85), (0xA0, 0xA0), (0x1680, 0x1680), (0x2000, 0x200A),
   (0x2028, 0x2029), (0x202F, 0x202F), (0x205F, 0x205F), (0x3000, 0x3000)]

def isBlank (c : Char) : Bool := blanks.covers c.toNat

/-- The alphabetic characters. -/
def letters : Ranges := lettersBasic ++ lettersBeyond

/-- The characters that are part of a word: letters, marks, decimal digits and joiners. -/
def wordChars : Ranges := (letters.union decimalDigits).union marks

def isWordChar (c : Char) : Bool := wordChars.covers c.toNat

/-- Whether a character is alphabetic in the newer edition. -/
def isLetter (c : Char) : Bool := letters.covers c.toNat || addedLetters.covers c.toNat

/-- Whether a character stands for a number in the newer edition. -/
def isNumeric (c : Char) : Bool :=
  decimalDigits.covers c.toNat || otherNumbers.covers c.toNat || addedNumbers.covers c.toNat

end ParserKit
