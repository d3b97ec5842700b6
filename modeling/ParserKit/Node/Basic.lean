import ParserKit.OrderedMap
import ParserKit.ParseError

/-!
# Trees

* **`Node`**: a node of the tree that a parse yields. It owns its children.
* `Node.same`: equality of trees, in which the order of attributes does not count.
* `Node.takeChildrenById`, `Node.takeChild`: remove children by their id, which is the tag by which a
  transform finds the parts of a node. It is no attribute.
-/

namespace ParserKit

/-- A node of a tree. -/
structure Node where
  name : String
  text : String
  attrs : OrderedMap String
  id : Option String
  children : List Node

namespace Node

def ofName (name : String) : Node := ⟨name, "", .empty, none, []⟩

def ofText (name text : String) : Node := ⟨name, text, .empty, none, []⟩

instance : Inhabited Node := ⟨ofName ""⟩

mutual

def same : Node → Node → Bool
  | ⟨name, text, attrs, id, children⟩, ⟨name', text', attrs', id', children'⟩ =>
    name == name' && text == text' && attrs.same attrs' && id == id' && sameAll children children'

def sameAll : List Node → List Node → Bool
  | [], [] => true
  | n :: ns, m :: ms => n.same m && sameAll ns ms
  | _, _ => false

end

/-! ## Attributes, id and children -/

def setAttr (n : Node) (key value : String) : Node := { n with attrs := n.attrs.insert key value }

def removeAttr (n : Node) (key : String) : Node := { n with attrs := n.attrs.erase key }

def attr? (n : Node) (key : String) : Option String := n.attrs.get? key

def setId (n : Node) (id : String) : Node := { n with id := some id }

def clearId (n : Node) : Node := { n with id := none }

def hasId (id : String) (n : Node) : Bool := n.id == some id

def addChild (n child : Node) : Node := { n with children := n.children ++ [child] }

def childrenById (n : Node) (id : String) : List Node := n.children.filter (hasId id)

def childrenByName (n : Node) (name : String) : List Node := n.children.filter (·.name == name)

def childById? (n : Node) (id : String) : Option Node := n.children.find? (hasId id)

/-- Removes the children with an id. They lose it, and can be put into another tree. -/
def takeChildrenById (n : Node) (id : String) : List Node × Node :=
  ((n.children.filter (hasId id)).map clearId,
    { n with children := n.children.filter fun c => !hasId id c })

/-- Removes the first child with an id, which loses it. It is an error if there is none. -/
def takeChild (n : Node) (id : String) : Except ParseError Node × Node :=
  match n.children.find? (hasId id) with
  | some child => (.ok child.clearId, { n with children := n.children.eraseP (hasId id) })
  | none =>
    (.error (.malformedTransform ("node '" ++ n.name ++ "' has no child with id '" ++ id ++ "'")), n)

/-- The same as a step of a transform, which drops the node with an error. -/
def takeChildById (n : Node) (id : String) : Except ParseError (Node × Node) :=
  match n.takeChild id with
  | (.ok child, rest) => .ok (child, rest)
  | (.error e, _) => .error e

/-- Replaces the child at an index, or removes it if there is no replacement. Yields the child that
was there; where there was none, nothing changes. -/
def replaceChild (n : Node) (index : Nat) (replacement : Option Node) : Option Node × Node :=
  match n.children[index]? with
  | none => (none, n)
  | some old =>
    (some old, { n with children := match replacement with
      | some new => n.children.set index new
      | none => n.children.eraseIdx index })

end Node

end ParserKit
