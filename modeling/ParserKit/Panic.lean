/-!
# Panics

A call that panics has no result at all, not even an error.

* `Panic`: the ways in which a call can panic.
* **`reserve`**: makes room for elements that are still to come.
-/

namespace ParserKit

/-- Why a call ends without a result. -/
inductive Panic where
  | capacityOverflow
deriving DecidableEq, Repr

/-- Makes room for `n` elements. No more than `limit` elements fit into memory, whatever they are;
the number depends on their size. -/
def reserve (limit n : Nat) : Except Panic Unit :=
  if n ≤ limit then .ok () else .error .capacityOverflow

@[simp] theorem reserve_zero (limit : Nat) : reserve limit 0 = .ok () := if_pos (Nat.zero_le limit)

theorem reserve_eq_ok {limit n : Nat} (h : n ≤ limit) : reserve limit n = .ok () := if_pos h

theorem reserve_eq_error {limit n : Nat} (h : limit < n) :
    reserve limit n = .error .capacityOverflow := if_neg (Nat.not_le.mpr h)

end ParserKit
