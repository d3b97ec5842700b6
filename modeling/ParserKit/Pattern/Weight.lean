import ParserKit.Pattern.Form
import ParserKit.Pattern.Tally

/-!
# The weight of a pattern

A pattern is run by two automata: one reads a text from its beginning to its end, the other one
from its end to its beginning. Neither may need more than a fixed amount of memory.

* `Tally.addWords`: adds the states of a choice of words.
* `Form.weigh`: adds the states of a form.
* **`Form.isTooLarge`**: whether one of the automata of a pattern is too large.
-/

namespace ParserKit

/-! ## Words -/

/-- Cuts a list of words at the empty ones. Where nothing has been read yet, several empty words in
a row count once. -/
def wordChunks : List (List Nat) → List (List (List Nat)) × List (List Nat) →
    List (List (List Nat))
  | [], (done, chunk) => done ++ [chunk]
  | [] :: words, (done, chunk) =>
    if chunk.isEmpty && done.all List.isEmpty && !done.isEmpty then wordChunks words (done, chunk)
    else wordChunks words (done ++ [chunk], [])
  | word :: words, (done, chunk) => wordChunks words (done, chunk ++ [word])

def wordTails (byte : Nat) (words : List (List Nat)) : List (List Nat) :=
  words.filterMap fun
    | [] => none
    | b :: tail => if b = byte then some tail else none

/-- Adds the states of a choice of words, which form a tree. The first argument is the length of the
longest one. -/
def Tally.addWords : Nat → List (List Nat) → Tally → Tally
  | 0, _, t => t
  | n + 1, words, t =>
    if words.all List.isEmpty then t
    else
      let chunks := wordChunks words ([], [])
      let t := chunks.foldl (fun t chunk =>
        let firsts := (chunk.filterMap List.head?).eraseDups
        let t := firsts.foldl (fun t b => t.addWords n (wordTails b chunk)) t
        match firsts with
        | [] => t
        | [_] => t.plain 1
        | _ => t.switch firsts.length) t
      t.fork ((chunks.filter (!·.isEmpty)).length + (chunks.length - 1))

/-! ## Forms -/

namespace Form

def word? : Form → Option (List Char)
  | word cs => some cs
  | _ => none

def weighWords (backward : Bool) (words : List (List Char)) (t : Tally) : Tally :=
  let words := words.map fun cs =>
    let bytes := cs.flatMap bytesOf
    if backward then bytes.reverse else bytes
  (t.plain 1).addWords ((words.map List.length).foldl max 0) words

def weighTimes (add : Tally → Tally) : Nat → Tally → Tally
  | 0, t => t.plain 1
  | n + 1, t => (add t).addTimes (fun t => add t.link) n

/-- Adds the states of a repetition; `moves` tells whether each round reads something. -/
def weighRounds (moves : Bool) (add : Tally → Tally) (least : Nat) (most : Option Nat) (t : Tally) :
    Tally :=
  match least, most with
  | 0, none =>
    if moves then { (add (t.fork 1)).link with endsInFork := true }
    else (((add t).link.fork 2).fork 2).plain 1
  | n, none => (weighTimes add n t).link.openFork 1
  | 0, some 1 => (add (t.fork 2)).link.plain 1
  | n, some m =>
    if n = m then weighTimes add n t
    else ((weighTimes add n t).link.plain 1).addTimes (fun t => (add (t.fork 2)).link) (m - n)

mutual

/-- Adds the states of a form, for one direction of reading. Only an automaton that reads forward
marks the ends of groups. -/
def weigh (backward : Bool) : Form → Tally → Tally
  | empty, t | look _, t => t.plain 1
  | word cs, t => t.plain (byteLength cs)
  | set s, t => t.addSet backward s
  | group f, t =>
    if backward then f.weigh backward t else (f.weigh backward (t.plain 1)).link.plain 1
  | concat fs, t => weighAll backward fs t
  | either fs, t =>
    match fs.mapM word? with
    | some words => weighWords backward words t
    | none => weighAny backward fs.length 0 fs t
  | repeated least most _ f, t =>
    weighRounds (f.leastLength.any (0 < ·)) (f.weigh backward) least most t

/-- Adds the states of forms one after the other, in the direction of reading. -/
def weighAll (backward : Bool) : List Form → Tally → Tally
  | [], t => t.plain 1
  | [f], t => f.weigh backward t
  | f :: fs, t =>
    if backward then f.weigh backward (weighAll backward fs t).link
    else weighAll backward fs (f.weigh backward t).link

/-- Adds the states of `count` alternatives, of which `done` have been added. The fork that leads to
them, and the state in which they meet, come after the second one. -/
def weighAny (backward : Bool) (count done : Nat) : List Form → Tally → Tally
  | [], t => t
  | f :: fs, t =>
    let t := (f.weigh backward t).link
    weighAny backward count (done + 1) fs (if done = 1 then (t.fork count).plain 1 else t)

end

/-! ## Patterns -/

mutual

/-- Whether every match has to begin at the start of the text or, read backward, at its end. -/
def isAnchored (backward : Bool) : Form → Bool
  | look .textStart => !backward
  | look .textEnd => backward
  | group f => f.isAnchored backward
  | concat fs => if backward then isAnchoredLast fs else isAnchoredFirst fs
  | either fs => areAnchored backward fs
  | repeated least _ _ f => least != 0 && f.isAnchored backward
  | _ => false

def isAnchoredFirst : List Form → Bool
  | [] => false
  | f :: fs => f.isAnchored false || f.isZeroWidth && isAnchoredFirst fs

def isAnchoredLast : List Form → Bool
  | [] => false
  | f :: fs => areZeroWidth fs && f.isAnchored true || isAnchoredLast fs

def areAnchored (backward : Bool) : List Form → Bool
  | [] => true
  | f :: fs => f.isAnchored backward && areAnchored backward fs

end

/-- The tally of the automaton of a pattern. A pattern that is not anchored begins with a loop in
which any bytes are read. -/
def tally (backward : Bool) (f : Form) : Tally :=
  let start : Tally := if f.isAnchored backward then Tally.plain 1 {} else ⟨3, 16, false⟩
  let whole := if backward then f.weigh backward start else (group f).weigh backward start
  whole.link.plain 1

/-- **Whether a pattern is too large to be run.** -/
def isTooLarge (f : Form) : Bool := (f.tally false).isTooLarge || (f.tally true).isTooLarge

end Form

end ParserKit
