import ParserKit.Pattern.Expr

/-!
# Normal forms of patterns

Patterns that say the same in different words can have the same normal form: what stands one after
the other is one flat list in which letters that meet have become one word, and alternatives are one
flat list whose common beginning has been taken out. The normal form of a pattern decides how large
its automaton is.

* **`Form`**: normal forms.
* `Form.ofSet`, `Form.sequence`, `Form.choice`, `Form.rounds`: normal forms from parts.
* **`Form.expr`**: the expression of a normal form.
-/

namespace ParserKit

/-- A pattern in normal form. -/
inductive Form where
  | empty
  | word (cs : List Char)
  | set (s : CharSet)
  | look (a : Assertion)
  | group (f : Form)
  | concat (fs : List Form)
  | either (fs : List Form)
  | repeated (least : Nat) (most : Option Nat) (lazy : Bool) (f : Form)

namespace Form

mutual

def size : Form → Nat
  | empty | word _ | set _ | look _ => 1
  | group f | repeated _ _ _ f => f.size + 1
  | concat fs | either fs => sizeAll fs + 1

def sizeAll : List Form → Nat
  | [] => 0
  | f :: fs => f.size + sizeAll fs

end

mutual

/-- Whether two forms agree. Groups are told apart by their places, so they never do. -/
def same : Form → Form → Bool
  | empty, empty => true
  | word cs, word cs' => cs == cs'
  | set s, set s' => s == s'
  | look a, look a' => a == a'
  | concat fs, concat fs' => sameAll fs fs'
  | either fs, either fs' => sameAll fs fs'
  | repeated least most lazy f, repeated least' most' lazy' f' =>
    least == least' && most == most' && lazy == lazy' && f.same f'
  | _, _ => false

def sameAll : List Form → List Form → Bool
  | [], [] => true
  | f :: fs, f' :: fs' => f.same f' && sameAll fs fs'
  | _, _ => false

end

/-! ## Lengths of matches -/

mutual

/-- Whether only the empty text can match. -/
def isZeroWidth : Form → Bool
  | empty | look _ => true
  | word _ | set _ => false
  | group f => f.isZeroWidth
  | concat fs | either fs => areZeroWidth fs
  | repeated _ most _ f => most.isSome && f.isZeroWidth

def areZeroWidth : List Form → Bool
  | [] => true
  | f :: fs => f.isZeroWidth && areZeroWidth fs

end

mutual

/-- A lower bound of the number of characters that a match has; `none` if there is no match. -/
def leastLength : Form → Option Nat
  | empty | look _ => some 0
  | word cs => some cs.length
  | set s => if s.isEmpty then none else some 1
  | group f => f.leastLength
  | concat fs => leastLengthOfAll fs
  | either fs => leastLengthOfAny fs
  | repeated least _ _ f => f.leastLength.map (least * ·)

def leastLengthOfAll : List Form → Option Nat
  | [] => some 0
  | f :: fs => do
    let m ← f.leastLength
    let n ← leastLengthOfAll fs
    some (m + n)

/-- A lower bound for alternatives; `none` if one of them has no match. -/
def leastLengthOfAny : List Form → Option Nat
  | [] => none
  | [f] => f.leastLength
  | f :: fs => do
    let m ← f.leastLength
    let n ← leastLengthOfAny fs
    some (min m n)

end

/-! ## Normal forms from parts -/

/-- The form of a set. A set of one character is a word. -/
def ofSet (s : CharSet) : Form :=
  match s with
  | [(lo, hi)] => if lo = hi then word [Char.ofNat lo] else set s
  | _ => set s

/-- Puts a form before others, where words that meet become one. -/
def before (f : Form) (fs : List Form) : List Form :=
  match f, fs with
  | word cs, word cs' :: fs => word (cs ++ cs') :: fs
  | f, fs => f :: fs

def members : Form → List Form
  | empty => []
  | concat fs => fs
  | f => [f]

def sequence (fs : List Form) : Form :=
  match (fs.flatMap members).foldr before [] with
  | [] => empty
  | [f] => f
  | fs => concat fs

/-- Repetition. A form without width is repeated once at most. -/
def rounds (least : Nat) (most : Option Nat) (lazy : Bool) (f : Form) : Form :=
  let most := if f.isZeroWidth then some (min (most.getD 1) 1) else most
  let least := if f.isZeroWidth then min least 1 else least
  if most = some 0 then empty
  else if least = 1 ∧ most = some 1 then f
  else repeated least most lazy f

/-- The character of a word that consists of one. -/
def letter? : Form → Option Char
  | word [c] => some c
  | _ => none

def set? : Form → Option CharSet
  | set s => some s
  | _ => none

def concat? : Form → Option (List Form)
  | concat fs => some fs
  | _ => none

def options : Form → List Form
  | either fs => fs
  | f => [f]

/-- The number of forms in which two lists agree from the beginning. -/
def agreement : List Form → List Form → Nat
  | f :: fs, f' :: fs' => if f.same f' then agreement fs fs' + 1 else 0
  | _, _ => 0

/-- Alternatives. Those that are single characters become a set, as do those that are sets; a
sequence with which all of them begin stands before what is left of them. The first argument bounds
how often this is repeated. -/
def choiceWithin : Nat → List Form → Form
  | 0, fs => either fs
  | fuel + 1, fs =>
    let fs := fs.flatMap options
    match fs, fs.mapM letter?, fs.mapM set?, fs.mapM concat? with
    | [f], _, _, _ => f
    | _, some cs, _, _ => ofSet (cs.foldl (fun s c => s.union (CharSet.single c)) ([] : CharSet))
    | _, _, some ss, _ => ofSet (ss.foldl (fun s t => s.union t) ([] : CharSet))
    | _, _, _, some (g :: gs) =>
      match gs.foldl (fun n h => min n (agreement g h)) g.length with
      | 0 => either fs
      | n => sequence (g.take n ++ [choiceWithin fuel ((g :: gs).map fun h => sequence (h.drop n))])
    | _, _, _, _ => either fs

def choice (fs : List Form) : Form := choiceWithin (sizeAll fs + 1) fs

/-! ## Expressions -/

mutual

def expr : Form → Expr
  | empty => .empty
  | word cs => cs.foldr (fun c e => (Expr.set (CharSet.single c)).andThen e) .empty
  | set s => .set s
  | look a => .look a
  | group f => f.expr
  | concat fs => exprOfAll fs
  | either fs => exprOfAny fs
  | repeated least most _ f => f.expr.counted least most

def exprOfAll : List Form → Expr
  | [] => .empty
  | f :: fs => f.expr.andThen (exprOfAll fs)

def exprOfAny : List Form → Expr
  | [] => .set []
  | [f] => f.expr
  | f :: fs => .either f.expr (exprOfAny fs)

end

end Form

end ParserKit
