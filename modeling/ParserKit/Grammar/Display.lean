import ParserKit.Grammar.Element
import ParserKit.Text.Quoted

/-!
# Grammars in one line

* `Grammar.display`: the names of the rules, of the root rule, and of the terminals that have a
  transform.
-/

namespace ParserKit

def Grammar.display (g : Grammar) : String :=
  "Grammar \x7b rules: " ++ quotedList g.rules.names ++ ", root: " ++
    (match g.rootName with
    | some name => "Some(" ++ quoted name ++ ")"
    | none => "None") ++
    ", terminal_transforms: " ++ quotedList g.terminalTransforms.names ++ " \x7d"

end ParserKit
