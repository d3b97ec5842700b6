import ParserKit.Text.Capitals

/-!
# Upper case

* `capitals`: the capital form of one character, which may be a sequence.
* **`upper`**: the upper-case form of a text, character by character. It is the full mapping: `ß`
  becomes `SS`.
-/

namespace ParserKit

def CapitalRun.contains (r : CapitalRun) (n : Nat) : Bool :=
  r.first ≤ n && n ≤ r.last && (n - r.first) % r.step == 0

/-- The first run that contains a code point, given that runs are sorted by their first member. -/
def findRun : List CapitalRun → Nat → Option CapitalRun
  | [], _ => none
  | r :: more, n => if n < r.first then none else if r.contains n then some r else findRun more n

/-- The capital form of a character: itself if it has no other. -/
def capitals (c : Char) : List Char :=
  match findRun capitalRuns c.toNat with
  | some r => [Char.ofNat (c.toNat + r.shift).toNat]
  | none =>
    if c.toNat < 0xDF then [c] else
    match capitalSequences.lookup c.toNat with
    | some ns => ns.map Char.ofNat
    | none => [c]

def upper (s : String) : String := String.ofList (s.toList.flatMap capitals)

end ParserKit
