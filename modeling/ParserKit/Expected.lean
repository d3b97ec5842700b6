import ParserKit.Token

/-!
# Expectations

* **`Expected`**: what a token may be: of one type, or of any of several.
* `Expected.accepts`, `Expected.acceptAll`: whether tokens are as expected.
-/

namespace ParserKit

/-- The token types that are acceptable at one place. -/
inductive Expected where
  | type (name : String)
  | anyOf (names : List String)
deriving DecidableEq

namespace Expected

def accepts : Expected → Token → Bool
  | type name, t => t.hasType name
  | anyOf names, t => names.any t.hasType

/-- Whether tokens are as expected, one by one, where the shorter list decides. -/
def acceptAll (slots : List Expected) (tokens : List Token) : Bool :=
  (slots.zip tokens).all fun (slot, token) => slot.accepts token

/-- The acceptable types, in one line. -/
def display : Expected → String
  | type name => name
  | anyOf names => ", ".intercalate names

end Expected

end ParserKit
