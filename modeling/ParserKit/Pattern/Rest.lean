import ParserKit.Text.Class

/-!
# Reading a text from the left

* **`Rest`**: what is left of a text after something was read from it. It is shorter than the text,
  so that readers which pass a rest on to each other come to an end.
* `skipBlanks`: what a verbose pattern may contain between its parts: white space, and comments
  from `#` to the end of the line.
-/

namespace ParserKit

/-- What is left of a text after at least one character was read. -/
abbrev Rest (s : List Char) := { r : List Char // r.length < s.length }

/-- What is left of the end of a text is left of the text. -/
def Rest.within {s t : List Char} (r : Rest t) (h : t.length ≤ s.length) : Rest s :=
  ⟨r.val, Nat.lt_of_lt_of_le r.property h⟩

/-! A text is left of itself, and of the text with one more character in front. -/

theorem length_le_self (s : List Char) : s.length ≤ s.length := Nat.le_refl _

theorem length_le_succ (t : List Char) : t.length ≤ t.length + 1 := Nat.le_succ _

theorem length_lt_succ (t : List Char) : t.length < t.length + 1 := Nat.lt_succ_self _

theorem length_left_lt_succ {t : List Char} (r : { r : List Char // r.length ≤ t.length }) :
    r.val.length < t.length + 1 := Nat.lt_succ_of_le r.property

/-- Skips white space and comments; `inComment` tells where the text begins. -/
def skipBlanks (inComment : Bool) : List Char → List Char
  | [] => []
  | c :: cs =>
    if inComment then skipBlanks (c != '\n') cs
    else if isBlank c then skipBlanks false cs
    else if c = '#' then skipBlanks true cs
    else c :: cs

theorem length_skipBlanks_le (inComment : Bool) (s : List Char) :
    (skipBlanks inComment s).length ≤ s.length := by
  induction s generalizing inComment with
  | nil => simp [skipBlanks]
  | cons c cs ih =>
    unfold skipBlanks
    split
    · exact Nat.le_succ_of_le (ih _)
    · split
      · exact Nat.le_succ_of_le (ih _)
      · split
        · exact Nat.le_succ_of_le (ih _)
        · exact Nat.le_refl _

/-- Skips blanks in a verbose pattern; in any other a blank stands for itself. -/
def skip (verbose : Bool) (s : List Char) : List Char := if verbose then skipBlanks false s else s

theorem length_skip_le (verbose : Bool) (s : List Char) : (skip verbose s).length ≤ s.length := by
  unfold skip
  split
  · exact length_skipBlanks_le _ _
  · exact Nat.le_refl _

end ParserKit
