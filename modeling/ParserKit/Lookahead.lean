/-!
# Lookahead buffers

* **`shortfall`**: how many entries a buffer lacks to hold `n` of them. It looks at no more than
  `n` entries, so asking it of a long buffer is cheap.
-/

namespace ParserKit

variable {α : Type}

/-- The number of entries that a buffer lacks to hold `n` of them. -/
def shortfall : List α → Nat → Nat
  | _, 0 => 0
  | [], n + 1 => n + 1
  | _ :: rest, n + 1 => shortfall rest n

theorem shortfall_eq (buffer : List α) (n : Nat) : shortfall buffer n = n - buffer.length := by
  induction buffer generalizing n with
  | nil => cases n <;> simp [shortfall]
  | cons _ rest ih => cases n <;> simp [shortfall, ih]

end ParserKit
