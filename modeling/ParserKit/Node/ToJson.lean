import ParserKit.Json.Basic
import ParserKit.Node.Basic

/-!
# Positions, tokens and trees in JSON

* `Position.toJson`, `Token.toJson`: a position and a token as documents.
* **`Node.toJson`**: a tree as a document. A node without an id has no such field.
-/

namespace ParserKit

def Position.toJson (p : Position) : Json :=
  .ofFields [("line", .ofNat p.line), ("column", .ofNat p.column), ("offset", .ofNat p.offset)]

def Token.toJson (t : Token) : Json :=
  .ofFields [("content", .ofText t.content), ("types", .array (t.types.map .ofText)),
    ("start", t.start.toJson), ("end", t.stop.toJson)]

def attrsToJson (attrs : OrderedMap String) : Json :=
  .ofFields (attrs.entries.map fun e => (e.1, .ofText e.2))

namespace Node

mutual

/-- **A tree as a document.** -/
def toJson : Node → Json
  | ⟨name, text, attrs, id, children⟩ =>
    .ofFields ([("name", .ofText name), ("text", .ofText text), ("attrs", attrsToJson attrs)] ++
      id.toList.map (fun id => ("id", .ofText id)) ++ [("children", .array (allToJson children))])

def allToJson : List Node → List Json
  | [] => []
  | n :: ns => n.toJson :: allToJson ns

end

end Node

end ParserKit
