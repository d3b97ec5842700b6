/-!
# The depth of a pattern

Patterns may be nested up to a fixed depth. A group, a repetition and a bracket are one deeper than
what they contain, and so are several things side by side; a single thing is as deep as itself.

* `depthOf`: the depth of things that stand side by side.
* `maxDepth`: the depth that a pattern may have.
-/

namespace ParserKit

/-- The depth of a sequence, a choice, or a list of items, from the depths of its members. -/
def depthOf : List Nat → Nat
  | [] => 0
  | [d] => d
  | ds => ds.foldl max 0 + 1

/-- The depth that a pattern may have. -/
def maxDepth : Nat := 250

end ParserKit
