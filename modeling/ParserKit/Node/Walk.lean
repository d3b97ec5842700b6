import ParserKit.Node.Basic

/-!
# Walks

* `Visitor`: what is to be done at each node of a tree, before and after its children.
* **`Node.walk`**: visits the nodes of a tree, parents before their children and children in order.
-/

namespace ParserKit

/-- How a walk goes on after a node has been entered. -/
inductive Walk where
  | descend
  | skipChildren
  | stop
deriving DecidableEq

/-- A visitor with a state. Both callbacks get the node and its parent, if it has one. -/
structure Visitor (σ : Type) where
  enter : σ → Node → Option Node → Walk × σ := fun s _ _ => (.descend, s)
  leave : σ → Node → Option Node → σ := fun s _ _ => s

namespace Node

variable {σ : Type} (v : Visitor σ)

mutual

/-- Visits a node and what is below it. The result tells whether the walk goes on; where it was
stopped, neither the node nor any node above it is left. -/
def walkFrom (parent : Option Node) : Node → σ → Bool × σ
  | ⟨name, text, attrs, id, children⟩, s =>
    let n : Node := ⟨name, text, attrs, id, children⟩
    match v.enter s n parent with
    | (.stop, s) => (false, s)
    | (.skipChildren, s) => (true, v.leave s n parent)
    | (.descend, s) =>
      match walkAll n children s with
      | (false, s) => (false, s)
      | (true, s) => (true, v.leave s n parent)

/-- Visits nodes one after the other, until one of them stops the walk. -/
def walkAll (parent : Node) : List Node → σ → Bool × σ
  | [], s => (true, s)
  | n :: ns, s =>
    match walkFrom (some parent) n s with
    | (false, s) => (false, s)
    | (true, s) => walkAll parent ns s

end

/-- **Visits the nodes of a tree.** -/
def walk (n : Node) (s : σ) : σ := (n.walkFrom v none s).2

end Node

end ParserKit
