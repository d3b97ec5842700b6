import ParserKit.Node.Walk

/-!
# Trees as markup

Each node becomes an element: attributes and id stand in its opening tag, the text comes before the
children, and every level is indented by the same number of blanks.

* `escapeMarkup`: the text of one character.
* **`MarkupWriter`**: a visitor that writes an opening tag where a node is entered, and its closing
  tag where the node is left.
* **`Node.toXml`**: the markup of a tree, as it is written along a walk.
-/

namespace ParserKit

/-- One character of a text or of an attribute value. -/
def escapeMarkup : Char → List Char
  | '&' => "&amp;".toList
  | '<' => "&lt;".toList
  | '>' => "&gt;".toList
  | '"' => "&quot;".toList
  | '\'' => "&apos;".toList
  | c => [c]

def markupText (s : String) : List Char := s.toList.flatMap escapeMarkup

def markupAttr (key value : String) : List Char :=
  ' ' :: key.toList ++ '=' :: '"' :: markupText value ++ ['"']

/-- An opening tag without its last character: the name, the attributes in order, and the id. -/
def markupHead (name : String) (attrs : OrderedMap String) (id : Option String) : List Char :=
  '<' :: name.toList ++ attrs.entries.flatMap (fun e => markupAttr e.1 e.2) ++
    id.toList.flatMap (markupAttr "id")

def markupTail (name : String) : List Char := '<' :: '/' :: name.toList ++ ['>', '\n']

def padding (indent depth : Nat) : List Char := List.replicate (depth * indent) ' '

/-- What has been written, the number of blanks for each level, and the level. -/
structure MarkupWriter where
  out : String
  indent : Nat
  depth : Nat

namespace MarkupWriter

def write (w : MarkupWriter) (s : List Char) : MarkupWriter :=
  { w with out := w.out ++ String.ofList s }

def pad (w : MarkupWriter) : MarkupWriter := w.write (padding w.indent w.depth)

def down (w : MarkupWriter) : MarkupWriter := { w with depth := w.depth + 1 }

def up (w : MarkupWriter) : MarkupWriter := { w with depth := w.depth - 1 }

/-- Writes an opening tag and the text behind it. A node without children is written as a whole, and
its level is not left. -/
def enter (w : MarkupWriter) (n : Node) (_parent : Option Node) : Walk × MarkupWriter :=
  let w := w.pad.write (markupHead n.name n.attrs n.id)
  match n.text.isEmpty, n.children.isEmpty with
  | true, true => (.skipChildren, w.write ['/', '>', '\n'])
  | false, true => (.skipChildren, w.write ('>' :: markupText n.text ++ markupTail n.name))
  | noText, false =>
    let w := (w.write ['>', '\n']).down
    (.descend, if noText then w else w.pad.write (markupText n.text ++ ['\n']))

/-- Writes the closing tag that is still missing. -/
def leave (w : MarkupWriter) (n : Node) (_parent : Option Node) : MarkupWriter :=
  if n.children.isEmpty then w else w.up.pad.write (markupTail n.name)

/-- **The visitor by which trees are written.** -/
def visitor : Visitor MarkupWriter := ⟨enter, leave⟩

section

variable (w : MarkupWriter) (s t : List Char)

@[simp] theorem write_write : (w.write s).write t = w.write (s ++ t) := by
  simp only [write, String.append_assoc, String.ofList_append]

@[simp] theorem write_nil : w.write [] = w := by rw [write, String.ofList_nil, String.append_empty]

@[simp] theorem indent_write : (w.write s).indent = w.indent := rfl

@[simp] theorem depth_write : (w.write s).depth = w.depth := rfl

@[simp] theorem down_write : (w.write s).down = w.down.write s := rfl

@[simp] theorem up_write : (w.write s).up = w.up.write s := rfl

@[simp] theorem up_down : w.down.up = w := rfl

@[simp] theorem indent_down : w.down.indent = w.indent := rfl

@[simp] theorem depth_down : w.down.depth = w.depth + 1 := rfl

end

end MarkupWriter

/-- **The markup of a tree, with `indent` blanks for each level.** -/
def Node.toXml (n : Node) (indent : Nat) : String :=
  (n.walk MarkupWriter.visitor ⟨"", indent, 0⟩).out

end ParserKit
