import ParserKit.Json.Basic
import ParserKit.Text.Hex

/-!
# Writing JSON

* `escapeJson`: the characters that stand for one character inside a string.
* **`Json.render`**: the text of a value, without blanks.
-/

namespace ParserKit

/-- One character inside a string. Quotes, backslashes and control characters are escaped. -/
def escapeJson (c : Char) : List Char :=
  if c = '"' then ['\\', '"']
  else if c = '\\' then ['\\', '\\']
  else if c = '\n' then ['\\', 'n']
  else if c = '\r' then ['\\', 'r']
  else if c = '\t' then ['\\', 't']
  else if c = '\x08' then ['\\', 'b']
  else if c = '\x0C' then ['\\', 'f']
  else if c.toNat < 0x20 then
    ['\\', 'u', '0', '0', hexDigit (c.toNat / 16), hexDigit (c.toNat % 16)]
  else [c]

/-- A string in quotes. Where it denotes no text, half of a surrogate pair is written. -/
def renderText : Option String → List Char
  | some s => '"' :: s.toList.flatMap escapeJson ++ ['"']
  | none => '"' :: '\\' :: 'u' :: 'd' :: '8' :: '0' :: '0' :: ['"']

mutual

def Json.render : Json → List Char
  | .null => ['n', 'u', 'l', 'l']
  | .bool true => ['t', 'r', 'u', 'e']
  | .bool false => ['f', 'a', 'l', 's', 'e']
  | .number literal => literal.toList
  | .string text => renderText text
  | .array [] => ['[', ']']
  | .array (item :: items) => '[' :: item.render ++ renderItems items
  | .object [] => ['{', '}']
  | .object ((name, value) :: fields) =>
    '{' :: renderText name ++ ':' :: value.render ++ renderFields fields

/-- The items of an array after the first one, and the closing bracket. -/
def renderItems : List Json → List Char
  | [] => [']']
  | item :: items => ',' :: item.render ++ renderItems items

/-- The fields of an object after the first one, and the closing brace. -/
def renderFields : List (Option String × Json) → List Char
  | [] => ['}']
  | (name, value) :: fields => ',' :: renderText name ++ ':' :: value.render ++ renderFields fields

end

end ParserKit
