/-!
# Pattern engines

Regular expressions are not a matter of the lexer: it hands its patterns to an engine, and asks what
comes back whether it is found in a text.

* `PatternError`: why an engine refuses a pattern, with its wording in `PatternError.message`.
* **`PatternEngine`**: an engine for regular expressions.
-/

namespace ParserKit

/-- Why an engine refuses a pattern. -/
inductive PatternError where
  | malformed (message : String)
  | tooLarge (limit : Nat)
deriving DecidableEq

def PatternError.message : PatternError → String
  | .malformed message => message
  | .tooLarge limit => "Compiled regex exceeds size limit of " ++ toString limit ++ " bytes."

/-- **An engine for regular expressions.** What comes of a pattern, unless it is refused, tells of a
text whether the pattern is found in it. -/
class PatternEngine where
  compile : List Char → Except PatternError (List Char → Bool)

end ParserKit
