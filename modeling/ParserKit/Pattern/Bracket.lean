import ParserKit.Pattern.Depth
import ParserKit.Pattern.Escape

/-!
# Bracketed character classes

A class is read with the brackets around it kept on a stack. In each of them, what has been read is
a union of items, and possibly a set operation that waits for its right operand.

* `OpenBracket`: a bracket that has not been closed; `Bracketed` is what it denotes in the end.
* `readClassName`: a named class such as `[:alpha:]`, which may stand inside brackets only.
* `readClassItem`: a character, a range of characters, or an escape sequence.
* `readClassPart`: one step of reading: an item, an operation, or a bracket.
* **`readClass`**: reads a class; its opening bracket has been read already.
-/

namespace ParserKit

/-- The binary operations on sets. -/
inductive SetOperation where
  | inter
  | diff
  | symmDiff

def SetOperation.apply : SetOperation → CharSet → CharSet → CharSet
  | inter => Ranges.inter
  | diff => Ranges.diff
  | symmDiff => Ranges.symmDiff

/-- What a bracket denotes, and how deep it is nested. -/
structure Bracketed where
  set : CharSet
  depth : Nat

/-- A bracket that has not been closed: whether it is negated, the operation that waits for its
right operand, and the items read since, with their depths. -/
structure OpenBracket where
  negated : Bool
  operand : Option (SetOperation × Bracketed) := none
  items : CharSet := []
  depths : List Nat := []

namespace OpenBracket

def add (b : OpenBracket) (item : Bracketed) : OpenBracket :=
  { b with items := b.items.union item.set, depths := item.depth :: b.depths }

def addChar (b : OpenBracket) (c : Char) : OpenBracket := b.add ⟨CharSet.single c, 0⟩

/-- What the bracket describes so far, before negation. -/
def value (b : OpenBracket) (caseless : Bool) : Bracketed :=
  match b.operand with
  | none => ⟨b.items, depthOf b.depths⟩
  | some (op, left) =>
    ⟨op.apply (left.set.foldIf caseless) (b.items.foldIf caseless),
      max left.depth (depthOf b.depths) + 1⟩

def operate (b : OpenBracket) (caseless : Bool) (op : SetOperation) : OpenBracket :=
  { b with operand := some (op, b.value caseless), items := [], depths := [] }

def close (b : OpenBracket) (caseless : Bool) : Bracketed :=
  let value := b.value caseless
  ⟨CharSet.negateIf b.negated (value.set.foldIf caseless), value.depth + 1⟩

end OpenBracket

/-- Reads hyphens at the beginning of a bracket; they stand for themselves. -/
def readHyphens (verbose : Bool) (b : OpenBracket) (s : List Char) :
    OpenBracket × { r : List Char // r.length ≤ s.length } :=
  match s with
  | '-' :: t =>
    let (b, rest) := readHyphens verbose (b.addChar '-') (skip verbose t)
    (b, ⟨rest.val, Nat.le_trans rest.property (Nat.le_succ_of_le (length_skip_le verbose t))⟩)
  | s => (b, ⟨s, Nat.le_refl _⟩)
termination_by s.length
decreasing_by
  have := length_skip_le verbose t
  simp only [List.length_cons]
  omega

/-- Reads the beginning of a bracket: a negation, and the items that are literal only there, which
are hyphens and, if there is none, a closing bracket. -/
def readBracketStart (verbose : Bool) (s : List Char) :
    OpenBracket × { r : List Char // r.length ≤ s.length } :=
  let first := skip verbose s
  let negated := first.head? == some '^'
  let afterSign := if negated then skip verbose first.tail else first
  let (b, rest) := readHyphens verbose { negated } afterSign
  have hlen : afterSign.length ≤ s.length := by
    have h1 := length_skip_le verbose s
    have h2 := length_skip_le verbose first.tail
    have h3 : first.tail.length ≤ first.length := by simp
    simp only [afterSign]
    split
    · exact Nat.le_trans h2 (Nat.le_trans h3 h1)
    · exact h1
  match h : rest.val, b.depths with
  | ']' :: t, [] =>
    (b.addChar ']', ⟨skip verbose t, by
      have h1 := length_skip_le verbose t
      have h2 := rest.property
      simp only [h, List.length_cons] at h2
      omega⟩)
  | _, _ => (b, ⟨rest.val, Nat.le_trans rest.property hlen⟩)

/-- Reads a named class, whose opening bracket has been read already. What does not have the form
of one, or has an unknown name, is not a named class. -/
def readClassName (caseless : Bool) : (s : List Char) → Option (CharSet × Rest s)
  | ':' :: t =>
    let negated := t.head? == some '^'
    let body := if negated then t.tail else t
    match h : body.dropWhile (· != ':') with
    | ':' :: ']' :: rest =>
      (CharSet.ofClassName (String.ofList (body.takeWhile (· != ':')))).map fun set =>
        (CharSet.negateIf negated (set.foldIf caseless), ⟨rest, by
          have h1 : (body.dropWhile (· != ':')).length ≤ body.length :=
            (List.dropWhile_sublist _).length_le
          have h2 : body.length ≤ t.length := by simp only [body]; split <;> simp
          simp only [h, List.length_cons] at h1 ⊢
          omega⟩)
    | _ => none
  | _ => none

/-- The character that decides whether the hyphen before `s` makes a range. -/
def afterHyphen (verbose : Bool) (s : List Char) : Option Char :=
  if verbose then
    match s.dropWhile isBlank with
    | '#' :: t => (t.dropWhile isBlank).head?
    | t => t.head?
  else s.head?

def readClassAtom (verbose : Bool) : (s : List Char) → Except PatternFault (Escape × Rest s)
  | [] => .error .unclosedClass
  | '\\' :: t => do
    let (e, rest) ← readEscape verbose t
    .ok (e, rest.within (length_le_succ t))
  | c :: t => .ok (.literal c, ⟨t, length_lt_succ t⟩)

def readClassItem (verbose : Bool) (s : List Char) : Except PatternFault (CharSet × Rest s) := do
  let (first, rest) ← readClassAtom verbose s
  let done : Except PatternFault (CharSet × Rest s) :=
    match first with
    | .literal c => .ok (CharSet.single c, rest)
    | .set set => .ok (set, rest)
    | .look _ => .error .badClassItem
  match h : skip verbose rest.val with
  | '-' :: t =>
    let next := afterHyphen verbose t
    if next == some ']' || next == some '-' then done
    else
      let (last, rest') ← readClassAtom verbose (skip verbose t)
      match first, last with
      | .literal lo, .literal hi =>
        if lo ≤ hi then
          .ok (CharSet.ofRange lo hi, rest'.within (by
            have h1 := length_skip_le verbose rest.val
            have h2 := length_skip_le verbose t
            have h3 := rest.property
            simp only [h, List.length_cons] at h1
            omega))
        else .error .badClassRange
      | _, _ => .error .badClassRange
  | _ => done

/-- A part of what stands between brackets. -/
inductive ClassPart where
  | set (s : CharSet)
  | opening (b : OpenBracket)
  | operation (op : SetOperation)
  | closing

/-- The operation whose sign consists of a character written twice. -/
def setOperation : Char → Option SetOperation
  | '&' => some .inter
  | '-' => some .diff
  | '~' => some .symmDiff
  | _ => none

def readSetPart (verbose : Bool) (s : List Char) : Except PatternFault (ClassPart × Rest s) := do
  let (set, rest) ← readClassItem verbose s
  .ok (.set set, rest)

/-- Reads one part of what stands between brackets; `s` does not begin with blanks to be skipped. -/
def readClassPart (verbose caseless : Bool) (s : List Char) :
    Except PatternFault (ClassPart × Rest s) :=
  match s with
  | [] => .error .unclosedClass
  | ']' :: t => .ok (.closing, ⟨t, length_lt_succ t⟩)
  | '[' :: t =>
    match readClassName caseless t with
    | some (set, rest) => .ok (.set set, rest.within (length_le_succ t))
    | none =>
      let (b, rest) := readBracketStart verbose t
      .ok (.opening b, ⟨rest.val, length_left_lt_succ rest⟩)
  | c :: c' :: t =>
    match setOperation c with
    | some op =>
      if c = c' then .ok (.operation op, ⟨t, by simp only [List.length_cons]; omega⟩)
      else readSetPart verbose (c :: c' :: t)
    | none => readSetPart verbose (c :: c' :: t)
  | s => readSetPart verbose s

/-- Reads the rest of a class, given the innermost open bracket and those around it. -/
def readBracket (verbose caseless : Bool) (outer : List OpenBracket) (b : OpenBracket)
    (s : List Char) : Except PatternFault (Bracketed × Rest s) := do
  let (part, rest) ← readClassPart verbose caseless (skip verbose s)
  have hrest : rest.val.length < s.length := Nat.lt_of_lt_of_le rest.property (length_skip_le _ _)
  match part with
  | .set set =>
    let (value, rest') ← readBracket verbose caseless outer (b.add ⟨set, 0⟩) rest.val
    .ok (value, rest'.within (Nat.le_of_lt hrest))
  | .opening inner =>
    let (value, rest') ← readBracket verbose caseless (b :: outer) inner rest.val
    .ok (value, rest'.within (Nat.le_of_lt hrest))
  | .operation op =>
    let (value, rest') ← readBracket verbose caseless outer (b.operate caseless op) rest.val
    .ok (value, rest'.within (Nat.le_of_lt hrest))
  | .closing =>
    match outer with
    | [] => .ok (b.close caseless, ⟨rest.val, hrest⟩)
    | around :: outer =>
      let (value, rest') ←
        readBracket verbose caseless outer (around.add (b.close caseless)) rest.val
      .ok (value, rest'.within (Nat.le_of_lt hrest))
termination_by s.length

def readClass (verbose caseless : Bool) (s : List Char) :
    Except PatternFault (Bracketed × Rest s) := do
  let (b, start) := readBracketStart verbose s
  let (value, rest) ← readBracket verbose caseless [] b start.val
  .ok (value, rest.within start.property)

end ParserKit
