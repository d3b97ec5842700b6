/-!
# JSON values

* **`Json`**: a JSON value. The fields of an object keep their order, and a name may be repeated.
* `Json.record`: the fields of a value that stands for a structure. It may be written as an object,
  in which unknown fields are ignored, or as an array of the fields in their order.
* `Json.text?`, `Json.flag?`, `Json.list?`: the values of other shapes.

A string that contains half of a surrogate pair denotes no text. It is kept as `none`, since it may
occur where nobody asks for its value.
-/

namespace ParserKit

/-- A JSON value. A number is kept as it is written. -/
inductive Json where
  | null
  | bool (value : Bool)
  | number (literal : String)
  | string (text : Option String)
  | array (items : List Json)
  | object (fields : List (Option String × Json))

namespace Json

def ofText (s : String) : Json := .string (some s)

def ofNat (n : Nat) : Json := .number (toString n)

def ofFields (fields : List (String × Json)) : Json :=
  .object (fields.map fun f => (some f.1, f.2))

def text? : Json → Option String
  | .string text => text
  | _ => none

/-- The text of a string, or `none` for a null. -/
def optionalText? : Json → Option (Option String)
  | .null => some none
  | .string (some text) => some (some text)
  | _ => none

def flag? : Json → Option Bool
  | .bool value => some value
  | _ => none

def list? {α : Type} (item : Json → Option α) : Json → Option (List α)
  | .array items => items.mapM item
  | _ => none

def valuesOf (name : String) (fields : List (Option String × Json)) : List Json :=
  (fields.filter fun f => f.1 == some name).map Prod.snd

/-- The fields of a value that stands for a structure with the given field names, each of them
absent or present. In an object none of them may be repeated; an array has no further items. -/
def record (names : List String) : Json → Option (List (Option Json))
  | .object fields =>
    if fields.all (fun f => f.1.isSome) && names.all fun n => (valuesOf n fields).length ≤ 1 then
      some (names.map fun n => (valuesOf n fields).head?)
    else none
  | .array items =>
    if items.length ≤ names.length then
      some (items.map some ++ List.replicate (names.length - items.length) none)
    else none
  | _ => none

end Json

def requiredField {α : Type} (read : Json → Option α) (value : Option Json) : Option α :=
  value.bind read

/-- A field that has the value `default` if it is absent, and is read by `read` otherwise. -/
def defaultField {α : Type} (read : Json → Option α) (default : α) : Option Json → Option α
  | none => some default
  | some value => read value

end ParserKit
