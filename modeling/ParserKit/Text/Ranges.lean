/-!
# Sets of characters as tables

* `Ranges`: a set of characters, written as closed ranges of code points in ascending order, with a
  gap between any two of them.
* `Ranges.covers`: membership, which stops at the first range that begins too high.
* `Ranges.union`, `Ranges.complement`, `Ranges.inter`, `Ranges.diff`, `Ranges.symmDiff`: the set
  operations, whose results are again in ascending order with gaps.
-/

namespace ParserKit

/-- Closed ranges of code points in ascending order. -/
abbrev Ranges := List (Nat × Nat)

namespace Ranges

def covers : Ranges → Nat → Bool
  | [], _ => false
  | (lo, hi) :: more, n => if n < lo then false else n ≤ hi || covers more n

/-- Joins a range with those that follow it, as far as they touch. -/
def absorb (lo hi : Nat) : Ranges → Ranges
  | [] => [(lo, hi)]
  | (lo', hi') :: more =>
    if lo' ≤ hi + 1 then absorb lo (max hi hi') more else (lo, hi) :: absorb lo' hi' more

def union (s t : Ranges) : Ranges :=
  match s.merge t fun r r' => r.1 ≤ r'.1 with
  | [] => []
  | (lo, hi) :: more => absorb lo hi more

def maxCodePoint : Nat := 0x10FFFF

/-- The code point of the next character; no character has a code point in the surrogate range. -/
def above (n : Nat) : Nat := if n = 0xD7FF then 0xE000 else n + 1

def below (n : Nat) : Nat := if n = 0xE000 then 0xD7FF else n - 1

/-- The characters from `n` on that a set does not contain. -/
def gapsFrom (n : Nat) : Ranges → Ranges
  | [] => if n ≤ maxCodePoint then [(n, maxCodePoint)] else []
  | (lo, hi) :: more =>
    if n < lo then (n, below lo) :: gapsFrom (above hi) more else gapsFrom (above hi) more

def complement (s : Ranges) : Ranges := gapsFrom 0 s

def inter (s t : Ranges) : Ranges := complement (union (complement s) (complement t))

def diff (s t : Ranges) : Ranges := inter s (complement t)

def symmDiff (s t : Ranges) : Ranges := diff (union s t) (inter s t)

end Ranges

end ParserKit
