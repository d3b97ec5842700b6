import ParserKit.Json.Basic
import ParserKit.Text.Hex

/-!
# Reading JSON

The reader is strict: blanks may stand between the parts of a value only, numbers have no leading
zero, strings contain no control characters, and nothing follows a value.

* `joinUnits`: the characters of a string, from its code units.
* `readText`, `readNumber`, `readValue`: the parts of a text.
* **`Json.parse`**: the value of a text.
-/

namespace ParserKit

def isJsonBlank (c : Char) : Bool := c == ' ' || c == '\n' || c == '\t' || c == '\r'

def skipJsonBlanks (s : List Char) : List Char := s.dropWhile isJsonBlank

/-! ## Strings -/

/-- Whether a code unit is the first half of a surrogate pair. -/
def isHighUnit (u : Nat) : Bool := 0xD800 ≤ u && u ≤ 0xDBFF

/-- Whether a code unit is the second half of a surrogate pair. -/
def isLowUnit (u : Nat) : Bool := 0xDC00 ≤ u && u ≤ 0xDFFF

/-- The characters that code units and code points stand for; `none` if a surrogate has no
partner. -/
def joinUnits : List Nat → Option (List Char)
  | [] => some []
  | [u] => if isHighUnit u || isLowUnit u then none else some [Char.ofNat u]
  | u :: v :: rest =>
    if isHighUnit u then
      if isLowUnit v then
        (joinUnits rest).map (Char.ofNat (0x10000 + (u - 0xD800) * 0x400 + (v - 0xDC00)) :: ·)
      else none
    else if isLowUnit u then none
    else (joinUnits (v :: rest)).map (Char.ofNat u :: ·)

def hexUnit (a b c d : Char) : Option Nat := do
  let a ← hexValue a
  let b ← hexValue b
  let c ← hexValue c
  let d ← hexValue d
  some (((a * 16 + b) * 16 + c) * 16 + d)

def unescapeJson : Char → Option Char
  | '"' => some '"'
  | '\\' => some '\\'
  | '/' => some '/'
  | 'b' => some '\x08'
  | 'f' => some '\x0C'
  | 'n' => some '\n'
  | 'r' => some '\r'
  | 't' => some '\t'
  | _ => none

/-- Reads a string up to its closing quote, as code units and code points. -/
def readUnits : List Char → Option (List Nat × List Char)
  | [] => none
  | '"' :: rest => some ([], rest)
  | '\\' :: 'u' :: a :: b :: c :: d :: rest => do
    let unit ← hexUnit a b c d
    let (units, rest) ← readUnits rest
    some (unit :: units, rest)
  | '\\' :: c :: rest => do
    let c ← unescapeJson c
    let (units, rest) ← readUnits rest
    some (c.toNat :: units, rest)
  | c :: rest =>
    if c.toNat < 0x20 || c == '\\' then none
    else do
      let (units, rest) ← readUnits rest
      some (c.toNat :: units, rest)

def readText (s : List Char) : Option (Option String × List Char) :=
  (readUnits s).map fun (units, rest) => ((joinUnits units).map String.ofList, rest)

/-! ## Numbers -/

def readDigits (s : List Char) : Option (List Char × List Char) :=
  if (s.takeWhile Char.isDigit).isEmpty then none
  else some (s.takeWhile Char.isDigit, s.dropWhile Char.isDigit)

/-- Reads the digits before the point; a zero stands alone. -/
def readWhole : List Char → Option (List Char × List Char)
  | '0' :: rest => some (['0'], rest)
  | s => readDigits s

def readFraction : List Char → Option (List Char × List Char)
  | '.' :: s => (readDigits s).map fun (digits, rest) => ('.' :: digits, rest)
  | s => some ([], s)

def readSign : List Char → List Char × List Char
  | '+' :: rest => (['+'], rest)
  | '-' :: rest => (['-'], rest)
  | s => ([], s)

def readExponent : List Char → Option (List Char × List Char)
  | c :: s =>
    if c == 'e' || c == 'E' then
      let (sign, s) := readSign s
      (readDigits s).map fun (digits, rest) => (c :: sign ++ digits, rest)
    else some ([], c :: s)
  | [] => some ([], [])

/-- Reads a number and keeps it as it is written. -/
def readNumber (s : List Char) : Option (String × List Char) := do
  let (minus, s) := match s with
    | '-' :: s => (['-'], s)
    | s => ([], s)
  let (whole, s) ← readWhole s
  let (fraction, s) ← readFraction s
  let (exponent, s) ← readExponent s
  some (String.ofList (minus ++ whole ++ fraction ++ exponent), s)

/-! ## Values -/

mutual

/-- Reads a value. The first argument bounds the depth of the reading. -/
def readValue : Nat → List Char → Option (Json × List Char)
  | 0, _ => none
  | n + 1, s =>
    match skipJsonBlanks s with
    | 'n' :: 'u' :: 'l' :: 'l' :: rest => some (.null, rest)
    | 't' :: 'r' :: 'u' :: 'e' :: rest => some (.bool true, rest)
    | 'f' :: 'a' :: 'l' :: 's' :: 'e' :: rest => some (.bool false, rest)
    | '"' :: rest => (readText rest).map fun (text, rest) => (.string text, rest)
    | '[' :: rest =>
      match skipJsonBlanks rest with
      | ']' :: rest => some (.array [], rest)
      | _ => (readItems n rest).map fun (items, rest) => (.array items, rest)
    | '{' :: rest =>
      match skipJsonBlanks rest with
      | '}' :: rest => some (.object [], rest)
      | _ => (readFields n rest).map fun (fields, rest) => (.object fields, rest)
    | s => (readNumber s).map fun (literal, rest) => (.number literal, rest)

/-- Reads the items of an array, of which there is at least one, and the closing bracket. -/
def readItems : Nat → List Char → Option (List Json × List Char)
  | 0, _ => none
  | n + 1, s => do
    let (item, rest) ← readValue n s
    match skipJsonBlanks rest with
    | ']' :: rest => some ([item], rest)
    | ',' :: rest =>
      let (items, rest) ← readItems n rest
      some (item :: items, rest)
    | _ => none

/-- Reads the fields of an object, of which there is at least one, and the closing brace. -/
def readFields : Nat → List Char → Option (List (Option String × Json) × List Char)
  | 0, _ => none
  | n + 1, s =>
    match skipJsonBlanks s with
    | '"' :: rest => do
      let (name, rest) ← readText rest
      match skipJsonBlanks rest with
      | ':' :: rest =>
        let (value, rest) ← readValue n rest
        match skipJsonBlanks rest with
        | '}' :: rest => some ([(name, value)], rest)
        | ',' :: rest =>
          let (fields, rest) ← readFields n rest
          some ((name, value) :: fields, rest)
        | _ => none
      | _ => none
    | _ => none

end

/-- **The value of a text.** Every part of a value takes up at least one character, so that twice
the length of the text bounds the depth of the reading. -/
def Json.parse (text : String) : Option Json := do
  let s := text.toList
  let (value, rest) ← readValue (2 * s.length + 2) s
  if (skipJsonBlanks rest).isEmpty then some value else none

end ParserKit
