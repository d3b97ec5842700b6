import ParserKit.Node.Basic

/-!
# Grammar elements

* `Transform`: changes a node that has just been built.
* **`Element`**: what a grammar is made of.
* `Rule`: a named element with an optional transform.
* `Grammar`: rules by name, the name of the root rule, and transforms for terminals.
* `Grammar.addRule`, `Grammar.makeRoot`, `Grammar.changeTransform`, `Grammar.setTerminalTransform`:
  changes to a grammar. Those that can be refused return the grammar in either case.

An element refers to a rule by its name, so that rules can refer to each other in any order.
-/

namespace ParserKit

abbrev Transform := Node → Except ParseError Node

/-- An element of a grammar.

* `terminal`: one token that carries a type tag.
* `ref`: whatever the rule of that name matches.
* `rule`: the content, whose nodes become the children of one node.
* `tagged`: the element, whose nodes all get an id.
* `sequence`: all elements in order.
* `alternatives`: the first choice that matches.
* `optional`, `many`, `oneOrMore`: the element at most once, any number of times, at least once. -/
inductive Element where
  | terminal (type : String)
  | ref (name : String)
  | rule (name : String) (content : Element) (transform : Option Transform)
  | tagged (id : String) (element : Element)
  | sequence (elements : List Element)
  | alternatives (choices : List Element)
  | optional (element : Element)
  | many (element : Element)
  | oneOrMore (element : Element)

namespace Element

instance : Inhabited Element := ⟨sequence []⟩

mutual

def weight : Element → Nat
  | terminal _ | ref _ => 1
  | rule _ e _ | tagged _ e | optional e | many e | oneOrMore e => e.weight + 1
  | sequence es | alternatives es => weightAll es + 1

def weightAll : List Element → Nat
  | [] => 0
  | e :: es => e.weight + weightAll es

end

def taggedWith (e : Element) : Option String → Element
  | some id => tagged id e
  | none => e

end Element

/-- A named element. The transform, if there is one, changes the node of every match. -/
structure Rule where
  name : String
  content : Element
  transform : Option Transform := none

def Rule.element (r : Rule) : Element := .rule r.name r.content r.transform

def Rule.weight (r : Rule) : Nat := r.element.weight

/-- A grammar. Rules and transforms are listed in the order of their first registration. -/
structure Grammar where
  rules : OrderedMap Rule := .empty
  rootName : Option String := none
  terminalTransforms : OrderedMap Transform := .empty

namespace Grammar

instance : Inhabited Grammar := ⟨{}⟩

/-! ## Look-up -/

def rule? (g : Grammar) (name : String) : Option Rule := g.rules.get? name

def root? (g : Grammar) : Option Rule := g.rootName.bind g.rule?

/-- Transforms the node of a terminal, if there is a transform for its type. -/
def transformTerminal (g : Grammar) (type : String) (n : Node) : Except ParseError Node :=
  match g.terminalTransforms.get? type with
  | some transform => transform n
  | none => .ok n

/-! ## Registration -/

/-- Registers a rule without a transform. It takes the place of an earlier rule of its name, and
becomes the root rule if `isRoot` holds. -/
def addRule (g : Grammar) (name : String) (content : Element) (isRoot : Bool) : Grammar :=
  { g with
    rules := g.rules.insert name { name, content }
    rootName := if isRoot then some name else g.rootName }

/-- Makes a registered rule the root rule. -/
def makeRoot (g : Grammar) (name : String) : Except ParseError Unit × Grammar :=
  if g.rules.contains name then (.ok (), { g with rootName := some name })
  else (.error (.undefinedRule name), g)

/-- Changes the transform of a registered rule; `none` removes it. -/
def changeTransform (g : Grammar) (name : String) (transform : Option Transform) :
    Except ParseError Unit × Grammar :=
  match g.rule? name with
  | some r => (.ok (), { g with rules := g.rules.insert name { r with transform } })
  | none => (.error (.undefinedRule name), g)

/-- The grammar after a change that succeeds. -/
def ofChange : Except ParseError Unit × Grammar → Except ParseError Grammar
  | (.ok (), g) => .ok g
  | (.error e, _) => .error e

/-- The grammar with a registered rule as its root rule. -/
def setRoot (g : Grammar) (name : String) : Except ParseError Grammar := ofChange (g.makeRoot name)

/-- The grammar with another transform for a registered rule. -/
def setTransform (g : Grammar) (name : String) (transform : Option Transform) :
    Except ParseError Grammar :=
  ofChange (g.changeTransform name transform)

def setTerminalTransform (g : Grammar) (type : String) (transform : Transform) : Grammar :=
  { g with terminalTransforms := g.terminalTransforms.insert type transform }

end Grammar

end ParserKit
