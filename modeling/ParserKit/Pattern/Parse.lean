import ParserKit.Pattern.Engine
import ParserKit.Pattern.Item
import ParserKit.Pattern.Weight

/-!
# Patterns as texts

Reading a pattern is a run over its items with the open groups on a stack. Flags that are set
inside a group hold up to its end, also across bars.

* `Layer`: what has been read of a choice that is not finished.
* `PatternReader`: the state of a run, with its step `PatternReader.add`.
* `Form.parse`: the normal form that a text denotes.
* **`Expr.parse`**: the expression that a text denotes.
* `Expr.engine`: the engine for these expressions.
-/

namespace ParserKit

/-- A member of a sequence: a piece, or a change of flags, which cannot be repeated. -/
inductive Part where
  | piece (p : Piece)
  | setting

def Part.toPiece : Part → Piece
  | piece p => p
  | setting => ⟨.empty, 0⟩

def Piece.sequence (ps : List Piece) : Piece :=
  ⟨Form.sequence (ps.map Piece.form), depthOf (ps.map Piece.depth)⟩

def Piece.choice (ps : List Piece) : Piece :=
  ⟨Form.choice (ps.map Piece.form), depthOf (ps.map Piece.depth)⟩

/-- An unfinished choice in a group of some kind: its finished branches and the parts of the branch
that is being read, both newest first, and the flags that hold around it. -/
structure Layer where
  kind : GroupKind := .plain
  flags : PatternFlags := {}
  branches : List Piece := []
  parts : List Part := []

namespace Layer

def branch (l : Layer) : Piece := Piece.sequence (l.parts.reverse.map Part.toPiece)

def close (l : Layer) : Piece :=
  match l.branches with
  | [] => l.branch
  | branches => Piece.choice (l.branch :: branches).reverse

def closeGroup (l : Layer) : Piece :=
  let inner := l.close
  match l.kind with
  | .plain => ⟨inner.form, inner.depth + 1⟩
  | .numbered | .named _ => ⟨.group inner.form, inner.depth + 1⟩

def nextBranch (l : Layer) : Layer := { l with branches := l.branch :: l.branches, parts := [] }

def push (l : Layer) (p : Piece) : Layer := { l with parts := .piece p :: l.parts }

end Layer

/-- The state of a reader: the flags in force, the innermost choice, those around it, and the group
names so far. The flags of a layer are those to go back to when it is closed. -/
structure PatternReader where
  flags : PatternFlags := {}
  layer : Layer := {}
  outer : List Layer := []
  names : List String := []

namespace PatternReader

def repeatLast (r : PatternReader) (least : Nat) (most : Option Nat) (isLazy : Bool) :
    Except PatternFault PatternReader :=
  match r.layer.parts with
  | .piece p :: parts =>
    let repeated : Piece := ⟨p.form.rounds least most isLazy, p.depth + 1⟩
    .ok { r with layer := { r.layer with parts := .piece repeated :: parts } }
  | _ => .error .missingOperand

def openGroup (r : PatternReader) (kind : GroupKind) (inner : PatternFlags) : PatternReader :=
  { r with flags := inner, layer := { kind, flags := r.flags }, outer := r.layer :: r.outer }

def add (r : PatternReader) : Item → Except PatternFault PatternReader
  | .atom p => .ok { r with layer := r.layer.push p }
  | .opening (.named name) inner =>
    if r.names.contains name then .error (.repeatedGroupName name)
    else .ok { r.openGroup (.named name) inner with names := name :: r.names }
  | .opening kind inner => .ok (r.openGroup kind inner)
  | .setting flags =>
    .ok { r with flags, layer := { r.layer with parts := .setting :: r.layer.parts } }
  | .closing =>
    match r.outer with
    | [] => .error .unopenedGroup
    | around :: outer =>
      .ok { r with flags := r.layer.flags, layer := around.push r.layer.closeGroup, outer }
  | .bar => .ok { r with layer := r.layer.nextBranch }
  | .repetition least most isLazy => r.repeatLast least most isLazy

def finish (r : PatternReader) : Except PatternFault Piece :=
  if r.outer.isEmpty then .ok r.layer.close else .error .unclosedGroup

def run (r : PatternReader) (s : List Char) : Except PatternFault PatternReader := do
  match ← readItem r.flags s with
  | none => .ok r
  | some (item, rest) =>
    have := rest.property
    let r' ← r.add item
    run r' rest.val
termination_by s.length

end PatternReader

/-- The normal form that a text denotes, unless it is nested too deeply. -/
def Form.parse (text : List Char) : Except PatternFault Form := do
  let r ← PatternReader.run {} text
  let piece ← r.finish
  if piece.depth ≤ maxDepth then .ok piece.form else .error .nestedTooDeeply

/-- **The expression that a text denotes,** unless its automaton is too large. -/
def Expr.parse (text : List Char) : Except PatternFault Expr := do
  let f ← Form.parse text
  if f.isTooLarge then .error .tooLarge else .ok f.expr

def PatternFault.error : PatternFault → PatternError
  | .tooLarge => .tooLarge Tally.maxBytes
  | fault => .malformed fault.message

/-- **The engine for the expressions of this library.** Unicode properties (as in `\p{L}`) and the
flags `u` and `R` are not part of their syntax, and only the letters of ASCII, with the two
characters that fold to one of them, lose their case under the flag `i`. -/
@[reducible]
def Expr.engine : PatternEngine where
  compile pattern :=
    match Expr.parse pattern with
    | .ok e => .ok e.occursIn
    | .error fault => .error fault.error

end ParserKit
