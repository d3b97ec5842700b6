import ParserKit.Pattern.Bracket
import ParserKit.Pattern.Form

/-!
# Items of a pattern

* `PatternFlags`: the flags under which a part of a pattern is read.
* `Piece`: a part of a pattern that has been read.
* `Item`: a pattern as a sequence of atoms, group brackets, bars and repetition signs.
* `readCount`, `readGroupName`, `readFlags`: the parts of longer items.
* **`readItem`**: reads the next item of a pattern.
-/

namespace ParserKit

/-! ## Flags -/

/-- The flags of a pattern. -/
structure PatternFlags where
  caseless : Bool := false
  multiLine : Bool := false
  dotNewline : Bool := false
  swapGreed : Bool := false
  verbose : Bool := false

/-- Sets one flag; `none` if no flag has this letter. -/
def PatternFlags.set (flags : PatternFlags) (value : Bool) : Char → Option PatternFlags
  | 'i' => some { flags with caseless := value }
  | 'm' => some { flags with multiLine := value }
  | 's' => some { flags with dotNewline := value }
  | 'U' => some { flags with swapGreed := value }
  | 'x' => some { flags with verbose := value }
  | _ => none

/-- Sets flags to `value` by their letters. -/
def PatternFlags.setAll (flags : PatternFlags) (value : Bool) (letters : List Char) :
    Option PatternFlags :=
  letters.foldlM (fun flags c => flags.set value c) flags

/-- Reads a change of flags: letters to be set and, after a hyphen, letters to be cleared. No letter
is repeated, and a hyphen is followed by one. -/
def PatternFlags.change (flags : PatternFlags) (letters : List Char) : Option PatternFlags :=
  let on := letters.takeWhile (· != '-')
  let off := (letters.dropWhile (· != '-')).tail
  if (on ++ off).Nodup ∧ (off.isEmpty → on = letters) then
    (flags.setAll true on).bind fun flags => flags.setAll false off
  else none

/-! ## Items -/

/-- A part of a pattern: its normal form, and how deep it is nested. -/
structure Piece where
  form : Form
  depth : Nat := 0

/-- The kinds of groups. Only those that are not plain are marked in the form of a pattern. -/
inductive GroupKind where
  | plain
  | numbered
  | named (name : String)

/-- An item of a pattern. -/
inductive Item where
  | atom (p : Piece)
  | opening (kind : GroupKind) (inner : PatternFlags)
  | setting (flags : PatternFlags)
  | closing
  | bar
  | repetition (least : Nat) (most : Option Nat) (lazy : Bool)

def PatternFlags.literal (flags : PatternFlags) (c : Char) : Piece :=
  ⟨Form.ofSet ((CharSet.single c).foldIf flags.caseless), 0⟩

def PatternFlags.dot (flags : PatternFlags) : Piece :=
  ⟨Form.ofSet (if flags.dotNewline then CharSet.all else (CharSet.single '\n').complement), 0⟩

/-! ## Repetition counts -/

/-- Reads the digits of a decimal number and the blanks after it; `value` is what the digits so far
denote. -/
def readDecimal (verbose : Bool) (value : Option Nat) (s : List Char) :
    Option Nat × { r : List Char // r.length ≤ s.length } :=
  match s with
  | [] => (value, ⟨[], Nat.le_refl _⟩)
  | c :: t =>
    if c.isDigit then
      let (n, rest) :=
        readDecimal verbose (some (10 * value.getD 0 + (c.toNat - '0'.toNat))) (skip verbose t)
      (n, ⟨rest.val, Nat.le_trans rest.property (Nat.le_succ_of_le (length_skip_le verbose t))⟩)
    else
      let rest := skip verbose ((c :: t).dropWhile isBlank)
      (value, ⟨rest, Nat.le_trans (length_skip_le _ _) (List.dropWhile_sublist _).length_le⟩)
termination_by s.length
decreasing_by
  have := length_skip_le verbose t
  simp only [List.length_cons]
  omega

def maxCount : Nat := 0xFFFFFFFF

/-- Reads a number in a repetition count, with blanks around it. -/
def readBound (verbose : Bool) (s : List Char) :
    Except PatternFault (Nat × { r : List Char // r.length ≤ s.length }) :=
  let (value, rest) := readDecimal verbose none (s.dropWhile isBlank)
  match value with
  | some n =>
    if n ≤ maxCount then
      .ok (n, ⟨rest.val, Nat.le_trans rest.property (List.dropWhile_sublist _).length_le⟩)
    else .error .badCount
  | none => .error .badCount

/-- Reads the sign that makes a repetition lazy, which changes nothing about whether a text matches.
The flag that swaps the two kinds makes a repetition lazy that does not have the sign. -/
def readLazy (swap : Bool) : (s : List Char) → Bool × { r : List Char // r.length ≤ s.length }
  | '?' :: t => (!swap, ⟨t, length_le_succ t⟩)
  | s => (swap, ⟨s, length_le_self s⟩)

/-- Reads the closing brace of a repetition count, and whether the repetition is lazy. -/
def readCountEnd (verbose swap : Bool) : (s : List Char) → Except PatternFault (Bool × Rest s)
  | '}' :: t =>
    let (isLazy, rest) := readLazy swap (skip verbose t)
    .ok (isLazy,
      ⟨rest.val, Nat.lt_succ_of_le (Nat.le_trans rest.property (length_skip_le verbose t))⟩)
  | _ => .error .badCount

/-- Reads a repetition count, whose opening brace has been read already. -/
def readCount (verbose swap : Bool) (s : List Char) : Except PatternFault (Item × Rest s) := do
  let (least, rest) ← readBound verbose (skip verbose s)
  have hlen : rest.val.length ≤ s.length := Nat.le_trans rest.property (length_skip_le verbose s)
  match h : rest.val with
  | ',' :: t =>
    have ht : t.length ≤ s.length := by simp only [h, List.length_cons] at hlen; omega
    have hskip : (skip verbose t).length ≤ s.length := Nat.le_trans (length_skip_le verbose t) ht
    if (skip verbose t).head? = some '}' then
      let (isLazy, rest) ← readCountEnd verbose swap (skip verbose t)
      .ok (.repetition least none isLazy, rest.within hskip)
    else
      let (most, rest) ← readBound verbose (skip verbose t)
      let (isLazy, rest') ← readCountEnd verbose swap rest.val
      if least ≤ most then
        .ok (.repetition least (some most) isLazy,
          rest'.within (Nat.le_trans rest.property hskip))
      else .error .badCount
  | t =>
    let (isLazy, rest) ← readCountEnd verbose swap t
    .ok (.repetition least (some least) isLazy, rest.within (by rw [← h]; exact hlen))

/-! ## Groups -/

def isNameStart (c : Char) : Bool := c == '_' || isLetter c

def isNameChar (c : Char) : Bool :=
  c == '_' || c == '.' || c == '[' || c == ']' || isLetter c || isNumeric c

def readGroupName (s : List Char) : Except PatternFault (String × Rest s) :=
  let name := s.takeWhile (· != '>')
  match h : s.dropWhile (· != '>') with
  | [] => .error .badGroupName
  | _ :: rest =>
    if name.head?.any isNameStart && name.all isNameChar then
      .ok (String.ofList name, ⟨rest, by
        have : (s.dropWhile (· != '>')).length ≤ s.length := (List.dropWhile_sublist _).length_le
        simp only [h, List.length_cons] at this
        omega⟩)
    else .error .badGroupName

/-- Reads a change of flags, up to the end of the item or up to the colon that begins a group. -/
def readFlags (flags : PatternFlags) (s : List Char) : Except PatternFault (Item × Rest s) :=
  let inChange (c : Char) : Bool := c != ':' && c != ')'
  let letters := s.takeWhile inChange
  match h : s.dropWhile inChange with
  | [] => .error .unclosedGroup
  | sign :: rest =>
    have hrest : rest.length < s.length := by
      have : (s.dropWhile inChange).length ≤ s.length := (List.dropWhile_sublist _).length_le
      simp only [h, List.length_cons] at this
      omega
    match flags.change letters with
    | none => .error .badFlags
    | some flags' =>
      if sign = ':' then .ok (.opening .plain flags', ⟨rest, hrest⟩)
      else if letters.isEmpty then .error .missingOperand
      else .ok (.setting flags', ⟨rest, hrest⟩)

/-- Reads the beginning of a group, whose parenthesis has been read already. -/
def readGroup (flags : PatternFlags) :
    (s : List Char) → Except PatternFault (Item × { r : List Char // r.length ≤ s.length })
  | '?' :: '=' :: _ | '?' :: '!' :: _ | '?' :: '<' :: '=' :: _ | '?' :: '<' :: '!' :: _ =>
    .error .lookAround
  | '?' :: 'P' :: '<' :: t => do
    let (name, rest) ← readGroupName t
    .ok (.opening (.named name) flags, ⟨rest.val, by
      have := rest.property; simp only [List.length_cons]; omega⟩)
  | '?' :: '<' :: t => do
    let (name, rest) ← readGroupName t
    .ok (.opening (.named name) flags, ⟨rest.val, by
      have := rest.property; simp only [List.length_cons]; omega⟩)
  | '?' :: t => do
    let (item, rest) ← readFlags flags t
    .ok (item, ⟨rest.val, by have := rest.property; simp only [List.length_cons]; omega⟩)
  | s => .ok (.opening .numbered flags, ⟨s, length_le_self s⟩)

/-! ## Reading -/

def PatternFlags.escaped (flags : PatternFlags) : Escape → Piece
  | .literal c => flags.literal c
  | .set s => ⟨Form.ofSet s, 0⟩
  | .look a => ⟨.look a, 0⟩

/-- Reads the next item of a pattern, which begins with the character `c`. -/
def readItemFrom (flags : PatternFlags) (c : Char) (t : List Char) :
    Except PatternFault (Item × Rest (c :: t)) :=
  let done (item : Item) : Except PatternFault (Item × Rest (c :: t)) :=
    .ok (item, ⟨t, length_lt_succ t⟩)
  let sign (least : Nat) (most : Option Nat) : Except PatternFault (Item × Rest (c :: t)) :=
    let (isLazy, rest) := readLazy flags.swapGreed t
    .ok (.repetition least most isLazy, ⟨rest.val, length_left_lt_succ rest⟩)
  match c with
  | ')' => done .closing
  | '|' => done .bar
  | '.' => done (.atom flags.dot)
  | '^' => done (.atom ⟨.look (if flags.multiLine then .lineStart else .textStart), 0⟩)
  | '$' => done (.atom ⟨.look (if flags.multiLine then .lineEnd else .textEnd), 0⟩)
  | '?' => sign 0 (some 1)
  | '*' => sign 0 none
  | '+' => sign 1 none
  | '{' => do
    let (item, rest) ← readCount flags.verbose flags.swapGreed t
    .ok (item, rest.within (length_le_succ t))
  | '(' => do
    let (item, rest) ← readGroup flags (skip flags.verbose t)
    .ok (item, ⟨rest.val,
      Nat.lt_succ_of_le (Nat.le_trans rest.property (length_skip_le flags.verbose t))⟩)
  | '[' => do
    let (value, rest) ← readClass flags.verbose flags.caseless t
    .ok (.atom ⟨Form.ofSet value.set, value.depth⟩, rest.within (length_le_succ t))
  | '\\' => do
    let (escape, rest) ← readEscape flags.verbose t
    .ok (.atom (flags.escaped escape), rest.within (length_le_succ t))
  | c => done (.atom (flags.literal c))

def readItem (flags : PatternFlags) (s : List Char) :
    Except PatternFault (Option (Item × Rest s)) :=
  match h : skip flags.verbose s with
  | [] => .ok none
  | c :: t => do
    let (item, rest) ← readItemFrom flags c t
    .ok (some (item, rest.within (h ▸ length_skip_le flags.verbose s)))

end ParserKit
