import ParserKit.Expected

/-!
# Parse errors

* **`ParseError`**: why a parse, a consumption or a transform fails, with its wording in
  `ParseError.message`.
-/

namespace ParserKit

/-- Why a parse fails. -/
inductive ParseError where
  | noTokenFound (expected : Expected)
  | unexpectedToken (token : Token)
  | malformedTransform (reason : String)
  | undefinedRule (name : String)
  | noRootRule
  | other (reason : String)
deriving DecidableEq

namespace ParseError

def message : ParseError → String
  | noTokenFound expected => "No token could be found for type(s) " ++ expected.display
  | unexpectedToken token =>
    "Unexpected token '" ++ token.content ++ "' at " ++ token.start.display
  | malformedTransform reason => "malformed transform: " ++ reason
  | undefinedRule name => "rule '" ++ name ++ "' is not defined"
  | noRootRule => "grammar has no root rule"
  | other reason => reason

def token? : ParseError → Option Token
  | unexpectedToken token => some token
  | _ => none

end ParseError

end ParserKit
