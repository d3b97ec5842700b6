import ParserKit.Pattern.CharSet
import ParserKit.Text.Bytes
import Std.Data.HashMap

/-!
# Counting the states of an automaton

The automaton of a pattern reads bytes. Its states are numbered in the order in which they are
added, and each of them takes memory: a fixed amount, and more for its arrows.

* `Tally`: the number of states and the memory so far, and how the part added last ends.
* `StateTable`: the states of a character set by what they do, so that one state serves several
  parts of the set. It has a fixed number of slots, and a newer entry takes the place of an older
  one.
* `Tally.addSet`: adds the states that read one character of a set.
-/

namespace ParserKit

/-- How many states an automaton has, how much memory they need besides the fixed amount for each,
and whether the part that was added last ends in a fork, to which an arrow is added when something
follows. -/
structure Tally where
  states : Nat := 0
  extra : Nat := 0
  endsInFork : Bool := false

namespace Tally

def bytes (t : Tally) : Nat := 32 * t.states + t.extra

def maxBytes : Nat := 10 * 1024 * 1024

def isTooLarge (t : Tally) : Bool := maxBytes < t.bytes

def plain (n : Nat) (t : Tally) : Tally := ⟨t.states + n, t.extra, false⟩

/-- Adds a state with an arrow for each of several ranges of bytes. -/
def switch (arrows : Nat) (t : Tally) : Tally := ⟨t.states + 1, t.extra + 8 * arrows, false⟩

/-- Adds a state with arrows that read nothing. -/
def fork (arrows : Nat) (t : Tally) : Tally := ⟨t.states + 1, t.extra + 4 * arrows, false⟩

/-- Adds a fork that is the end of a part. -/
def openFork (arrows : Nat) (t : Tally) : Tally := { t.fork arrows with endsInFork := true }

/-- Makes something follow on the part that was added last. -/
def link (t : Tally) : Tally := ⟨t.states, if t.endsInFork then t.extra + 4 else t.extra, false⟩

/-- Adds something several times, until the automaton is too large. -/
def addTimes (add : Tally → Tally) : Nat → Tally → Tally
  | 0, t => t
  | n + 1, t => if t.isTooLarge then t else addTimes add n (add t)

end Tally

/-! ## States of sets -/

/-- The states that have been added for a set, each under a key that says what it does. -/
structure StateTable where
  slots : Nat
  entries : Std.HashMap Nat (List Nat × Nat) := {}

namespace StateTable

def slot (table : StateTable) (key : List Nat) : Nat :=
  let mix (h : UInt64) (n : Nat) : UInt64 := (h ^^^ n.toUInt64) * 1099511628211
  (key.foldl mix 14695981039346656037).toNat % table.slots

/-- The state with a key, if it has been added and not been displaced. -/
def find? (table : StateTable) (key : List Nat) : Option Nat :=
  match table.entries[table.slot key]? with
  | some (key', state) => if key' = key then some state else none
  | none => none

def insert (table : StateTable) (key : List Nat) (state : Nat) : StateTable :=
  { table with entries := table.entries.insert (table.slot key) (key, state) }

end StateTable

/-- A tally together with the states of the set that is being added. -/
structure SetTally where
  tally : Tally
  table : StateTable

namespace SetTally

/-- The state with a key, which is added by `add` if there is none. -/
def state (key : List Nat) (add : Tally → Tally) (t : SetTally) : Nat × SetTally :=
  match t.table.find? key with
  | some n => (n, t)
  | none => (t.tally.states, ⟨add t.tally, t.table.insert key t.tally.states⟩)

/-! ### Forward

The sequences of byte ranges come in ascending order. The states of the current sequence are kept
open, since what follows may add arrows to them. -/

/-- A state to which arrows may still be added: its arrows, as numbers in a row, and the bytes of an
arrow whose target is still open. -/
structure OpenState where
  arrows : List Nat := []
  last : Option (Nat × Nat) := none

/-- The arrows of a state whose open arrow leads to `target`. -/
def OpenState.closed (s : OpenState) (target : Nat) : List Nat :=
  match s.last with
  | none => s.arrows
  | some (lo, hi) => s.arrows ++ [lo, hi, target]

/-- Closes a path of open states, each of which leads to the next one and the last of which leads to
`target`. -/
def closePath (target : Nat) : List OpenState → SetTally → Nat × SetTally
  | [], t => (target, t)
  | s :: path, t =>
    let (next, t) := closePath target path t
    let arrows := s.closed next
    t.state arrows (Tally.switch (arrows.length / 3))

def openPath (bytes : List (Nat × Nat)) : List OpenState := bytes.map fun r => ⟨[], some r⟩

def addForward (target : Nat) : List OpenState → List (Nat × Nat) → SetTally →
    List OpenState × SetTally
  | [], bytes, t => (openPath bytes, t)
  | path, [], t => (path, t)
  | s :: path, r :: bytes, t =>
    if s.last = some r then
      let (path, t) := addForward target path bytes t
      (s :: path, t)
    else
      let (next, t) := closePath target path t
      (⟨s.closed next, some r⟩ :: openPath bytes, t)

/-! ### Backward

The bytes of a character are read from the last one to the first, and each sequence of byte ranges
is a branch of one fork. -/

/-- Adds a sequence of byte ranges that ends at `target`. -/
def addBackward (target : Nat) (bytes : List (Nat × Nat)) (t : SetTally) : SetTally :=
  let (_, t) := bytes.foldl (fun (next, t) r =>
    t.state [next, r.1, r.2] (Tally.plain 1)) (target, t)
  { t with tally.extra := t.tally.extra + 4 }

end SetTally

def CharSet.isAscii (s : CharSet) : Bool := List.all s fun r => r.2 ≤ 0x7F

/-- Adds the states that read one character of a set. A set of ASCII characters needs one, and one
in which its arrows meet. -/
def Tally.addSet (backward : Bool) (s : CharSet) (t : Tally) : Tally :=
  let sequences := List.flatMap (fun r => byteRanges r.1 r.2) s
  if s.isAscii then (t.plain 1).switch s.length
  else if backward then
    let target := t.states + 1
    let start : SetTally := ⟨(t.fork 0).plain 1, { slots := 1000 }⟩
    (sequences.foldl (fun t bytes => t.addBackward target bytes) start).tally
  else
    let target := t.states
    let start : SetTally := ⟨t.plain 1, { slots := 10000 }⟩
    let (path, t) := sequences.foldl
      (fun (path, t) bytes => SetTally.addForward target path bytes t) ([{}], start)
    (SetTally.closePath target path t).2.tally

end ParserKit
