import ParserKit.Pattern.Assertion
import ParserKit.Pattern.CharSet
import ParserKit.Pattern.Fault
import ParserKit.Pattern.Rest
import ParserKit.Text.Hex

/-!
# Escape sequences in patterns

* `Escape`: what a backslash and its continuation can stand for.
* `readCodePoint`: a character given by its number, with a fixed count of hexadecimal digits or
  with any count of them in braces.
* **`readEscape`**: reads what follows a backslash.
-/

namespace ParserKit

/-- The meaning of an escape sequence. -/
inductive Escape where
  | literal (c : Char)
  | set (s : CharSet)
  | look (a : Assertion)

def charOfCodePoint (n : Nat) : Except PatternFault Char :=
  if n.isValidChar then .ok (Char.ofNat n) else .error .badCodePoint

/-- Reads `n` further hexadecimal digits of a number; `value` is what its digits so far denote. -/
def readHexDigits (verbose : Bool) : Nat → Nat → (s : List Char) →
    Except PatternFault (Nat × { r : List Char // r.length ≤ s.length })
  | 0, value, s => .ok (value, ⟨s, Nat.le_refl _⟩)
  | _ + 1, _, [] => .error .unfinishedEscape
  | n + 1, value, c :: s => do
    let some digit := hexValue c | .error .badCodePoint
    let (value, rest) ← readHexDigits verbose n (16 * value + digit) (skip verbose s)
    .ok (value, ⟨rest.val, Nat.le_trans rest.property
      (Nat.le_succ_of_le (length_skip_le verbose s))⟩)

def readHexBraced (verbose : Bool) (value : Option Nat) (s : List Char) :
    Except PatternFault (Nat × { r : List Char // r.length ≤ s.length }) :=
  match h : skip verbose s with
  | [] => .error .unfinishedEscape
  | c :: t =>
    have hlen : t.length < s.length := by
      have := length_skip_le verbose s
      simp only [h, List.length_cons] at this
      omega
    if c = '}' then
      match value with
      | some n =>
        .ok (n, ⟨skip verbose t, Nat.le_trans (length_skip_le verbose t) (Nat.le_of_lt hlen)⟩)
      | none => .error .badCodePoint
    else
      match hexValue c with
      | none => .error .badCodePoint
      | some digit => do
        let (n, rest) ← readHexBraced verbose (some (16 * value.getD 0 + digit)) t
        .ok (n, ⟨rest.val, Nat.le_trans rest.property (Nat.le_of_lt hlen)⟩)
termination_by s.length

/-- Reads a code point with `digits` hexadecimal digits, or with any number of them in braces. -/
def readCodePoint (verbose : Bool) (digits : Nat) (s : List Char) :
    Except PatternFault (Char × { r : List Char // r.length ≤ s.length }) :=
  match h : skip verbose s with
  | [] => .error .unfinishedEscape
  | c :: t => do
    have hlen : t.length + 1 ≤ s.length := by
      have := length_skip_le verbose s
      simpa only [h, List.length_cons] using this
    if c = '{' then
      let (n, rest) ← readHexBraced verbose none t
      let c ← charOfCodePoint n
      .ok (c, ⟨rest.val, Nat.le_trans rest.property (Nat.le_trans (Nat.le_succ _) hlen)⟩)
    else
      let (n, rest) ← readHexDigits verbose digits 0 (c :: t)
      let c ← charOfCodePoint n
      .ok (c, ⟨rest.val, Nat.le_trans rest.property hlen⟩)

/-- Whether a character stands for itself after a backslash: any ASCII character that is neither
alphanumeric nor an angle bracket. -/
def isEscapable (c : Char) : Bool := c.toNat < 0x80 && !c.isAlphanum && c != '<' && c != '>'

/-- The kinds of word boundaries that have a name in braces. -/
def namedBoundary : String → Option Assertion
  | "start" => some .wordStart
  | "end" => some .wordEnd
  | "start-half" => some .wordStartHalf
  | "end-half" => some .wordEndHalf
  | _ => none

def isBoundaryNameChar (c : Char) : Bool := c.isAlpha || c == '-'

/-- Reads the name of a word boundary up to its closing brace; `name` is what has been read of it,
newest character first. -/
def readBoundaryName (verbose : Bool) (name : List Char) (s : List Char) :
    Except PatternFault (Assertion × { r : List Char // r.length ≤ s.length }) :=
  match s with
  | [] => .error .unfinishedEscape
  | c :: t =>
    if isBoundaryNameChar c then do
      let (a, rest) ← readBoundaryName verbose (c :: name) (skip verbose t)
      .ok (a, ⟨rest.val, Nat.le_trans rest.property (Nat.le_succ_of_le (length_skip_le verbose t))⟩)
    else if c = '}' then
      match namedBoundary (String.ofList name.reverse) with
      | some a => .ok (a, ⟨t, Nat.le_succ _⟩)
      | none => .error .unfinishedEscape
    else .error .unfinishedEscape
termination_by s.length
decreasing_by
  have := length_skip_le verbose t
  simp only [List.length_cons]
  omega

/-- Reads what follows a `\b`: a name in braces, or nothing. A brace that is followed by something
other than a name is left for a repetition count. -/
def readBoundary (verbose : Bool) (s : List Char) :
    Except PatternFault (Assertion × { r : List Char // r.length ≤ s.length }) :=
  match s with
  | '{' :: t =>
    match h : skip verbose t with
    | [] => .error .unfinishedEscape
    | c :: u =>
      if isBoundaryNameChar c then do
        let (a, rest) ← readBoundaryName verbose [] (c :: u)
        .ok (a, ⟨rest.val, Nat.le_trans rest.property
          (Nat.le_succ_of_le (h ▸ length_skip_le verbose t))⟩)
      else .ok (.wordBoundary, ⟨'{' :: t, Nat.le_refl _⟩)
  | s => .ok (.wordBoundary, ⟨s, Nat.le_refl _⟩)

def readEscape (verbose : Bool) : (s : List Char) → Except PatternFault (Escape × Rest s)
  | [] => .error .unfinishedEscape
  | c :: t =>
    let done (e : Escape) : Except PatternFault (Escape × Rest (c :: t)) :=
      .ok (e, ⟨t, Nat.lt_succ_self _⟩)
    let codePoint (digits : Nat) : Except PatternFault (Escape × Rest (c :: t)) := do
      let (char, rest) ← readCodePoint verbose digits t
      .ok (.literal char, ⟨rest.val, Nat.lt_succ_of_le rest.property⟩)
    match c with
    | 'x' => codePoint 2
    | 'u' => codePoint 4
    | 'U' => codePoint 8
    | 'd' => done (.set decimalDigits)
    | 's' => done (.set blanks)
    | 'w' => done (.set wordChars)
    | 'D' => done (.set decimalDigits.complement)
    | 'S' => done (.set blanks.complement)
    | 'W' => done (.set wordChars.complement)
    | 'a' => done (.literal '\x07')
    | 'f' => done (.literal '\x0C')
    | 't' => done (.literal '\t')
    | 'n' => done (.literal '\n')
    | 'r' => done (.literal '\r')
    | 'v' => done (.literal '\x0B')
    | 'A' => done (.look .textStart)
    | 'z' => done (.look .textEnd)
    | 'B' => done (.look .noWordBoundary)
    | '<' => done (.look .wordStart)
    | '>' => done (.look .wordEnd)
    | 'b' => do
      let (a, rest) ← readBoundary verbose t
      .ok (.look a, ⟨rest.val, Nat.lt_succ_of_le rest.property⟩)
    | c =>
      if c.isDigit then .error .backReference
      else if isEscapable c then done (.literal c)
      else .error (.unknownEscape c)

end ParserKit
