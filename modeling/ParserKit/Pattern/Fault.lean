/-!
# Faults in patterns

* `PatternFault`: why a text is not a pattern, with its wording in `PatternFault.message`.
-/

namespace ParserKit

/-- Why a text is not a pattern. -/
inductive PatternFault where
  | unopenedGroup
  | unclosedGroup
  | badGroupName
  | repeatedGroupName (name : String)
  | lookAround
  | badFlags
  | missingOperand
  | badCount
  | tooLarge
  | nestedTooDeeply
  | unclosedClass
  | badClassItem
  | badClassRange
  | unfinishedEscape
  | unknownEscape (char : Char)
  | backReference
  | badCodePoint
deriving DecidableEq

def PatternFault.message : PatternFault → String
  | .unopenedGroup => "unopened group"
  | .unclosedGroup => "unclosed group"
  | .badGroupName => "invalid capture group name"
  | .repeatedGroupName name => "repeated capture group name " ++ name
  | .lookAround => "look-around is not supported"
  | .badFlags => "invalid flags"
  | .missingOperand => "repetition operator without an expression"
  | .badCount => "invalid repetition count"
  | .tooLarge => "the automaton exceeds the size limit"
  | .nestedTooDeeply => "the nesting exceeds the depth limit"
  | .unclosedClass => "unclosed character class"
  | .badClassItem => "invalid item in a character class"
  | .badClassRange => "invalid range in a character class"
  | .unfinishedEscape => "unfinished escape sequence"
  | .unknownEscape c => "unrecognized escape sequence of " ++ c.toString
  | .backReference => "backreferences are not supported"
  | .badCodePoint => "invalid code point"

end ParserKit
