import ParserKit.Text.Invisible
import ParserKit.Text.Unassigned

/-!
# Quoted names

* `quoteChar`: one character between quotes.
* **`quoted`**: a name in quotes, in which every character can be told from every other.
* `quotedList`: several names, in brackets.
-/

namespace ParserKit

/-- Whether a code point cannot be shown: it is unassigned, or its character is invisible. -/
def isHidden (n : Nat) : Bool :=
  invisible.covers n || if n < 0x10000 then unassignedBasic.covers n else unassignedBeyond.covers n

/-- One character between quotes. What cannot be shown is given by its number. -/
def quoteChar (c : Char) : List Char :=
  match c with
  | '"' => ['\\', '"']
  | '\\' => ['\\', '\\']
  | '\n' => ['\\', 'n']
  | '\r' => ['\\', 'r']
  | '\t' => ['\\', 't']
  | '\x00' => ['\\', '0']
  | c =>
    if isHidden c.toNat then '\\' :: 'u' :: '{' :: Nat.toDigits 16 c.toNat ++ ['}'] else [c]

def quoted (s : String) : String := String.ofList ('"' :: s.toList.flatMap quoteChar ++ ['"'])

/-- Several names in quotes, in brackets. -/
def quotedList (ss : List String) : String := "[" ++ ", ".intercalate (ss.map quoted) ++ "]"

end ParserKit
