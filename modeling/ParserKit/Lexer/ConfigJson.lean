import ParserKit.Json.Printer
import ParserKit.Json.Reader
import ParserKit.Lexer.Config

/-!
# Lexer configurations in JSON

* **`LexerConfig.toJson`**, `LexerConfig.toText`: a configuration as a document.
* **`LexerConfig.ofJson?`**, `LexerConfig.ofText?`: the configuration that a document describes.
  A missing field of the configuration has its default; in the parts only the nesting of comments
  and the escape sequence of strings may be missing.
-/

namespace ParserKit

/-! ## Writing -/

def textList (texts : List String) : Json := .array (texts.map .ofText)

def CommentType.toJson (t : CommentType) : Json :=
  .ofFields [("start", .ofText t.start), ("end", .ofText t.stop), ("nested", .bool t.nested)]

def StringType.toJson (t : StringType) : Json :=
  .ofFields [("name", .ofText t.name), ("delimiter", .ofText t.delimiter),
    ("escape", match t.escape with
      | none => .null
      | some escape => .ofText escape)]

def Symbol.toJson (s : Symbol) : Json :=
  .ofFields [("sequence", .ofText s.sequence), ("name", .ofText s.name)]

def TerminalPattern.toJson (t : TerminalPattern) : Json :=
  .ofFields [("pattern", .ofText t.pattern), ("name", .ofText t.name)]

/-- **A configuration as a document.** -/
def LexerConfig.toJson (c : LexerConfig) : Json :=
  .ofFields [("whitespace", .ofText c.whitespace), ("case_sensitive", .bool c.caseSensitive),
    ("multi_type_tokens", .bool c.multiType),
    ("comment_types", .array (c.comments.map CommentType.toJson)),
    ("string_types", .array (c.strings.map StringType.toJson)),
    ("symbols", .array (c.symbols.map Symbol.toJson)), ("keywords", textList c.keywords),
    ("terminals", .array (c.terminals.map TerminalPattern.toJson))]

def LexerConfig.toText (c : LexerConfig) : String := String.ofList c.toJson.render

/-! ## Reading -/

def CommentType.ofJson? (j : Json) : Option CommentType := do
  let [start, stop, nested] ← j.record ["start", "end", "nested"] | none
  some ⟨← requiredField Json.text? start, ← requiredField Json.text? stop,
    ← defaultField Json.flag? false nested⟩

def StringType.ofJson? (j : Json) : Option StringType := do
  let [name, delimiter, escape] ← j.record ["name", "delimiter", "escape"] | none
  some ⟨← requiredField Json.text? name, ← requiredField Json.text? delimiter,
    ← defaultField Json.optionalText? none escape⟩

def Symbol.ofJson? (j : Json) : Option Symbol := do
  let [sequence, name] ← j.record ["sequence", "name"] | none
  some ⟨← requiredField Json.text? sequence, ← requiredField Json.text? name⟩

def TerminalPattern.ofJson? (j : Json) : Option TerminalPattern := do
  let [pattern, name] ← j.record ["pattern", "name"] | none
  some ⟨← requiredField Json.text? pattern, ← requiredField Json.text? name⟩

def LexerConfig.fieldNames : List String :=
  ["whitespace", "case_sensitive", "multi_type_tokens", "comment_types", "string_types", "symbols",
    "keywords", "terminals"]

/-- **The configuration that a document describes.** -/
def LexerConfig.ofJson? (j : Json) : Option LexerConfig := do
  let [whitespace, caseSensitive, multiType, comments, strings, symbols, keywords, terminals] ←
    j.record LexerConfig.fieldNames | none
  let default : LexerConfig := {}
  some {
    whitespace := ← defaultField Json.text? default.whitespace whitespace
    caseSensitive := ← defaultField Json.flag? default.caseSensitive caseSensitive
    multiType := ← defaultField Json.flag? default.multiType multiType
    comments := ← defaultField (Json.list? CommentType.ofJson?) default.comments comments
    strings := ← defaultField (Json.list? StringType.ofJson?) default.strings strings
    symbols := ← defaultField (Json.list? Symbol.ofJson?) default.symbols symbols
    keywords := ← defaultField (Json.list? Json.text?) default.keywords keywords
    terminals := ← defaultField (Json.list? TerminalPattern.ofJson?) default.terminals terminals }

def LexerConfig.ofText? (text : String) : Option LexerConfig :=
  (Json.parse text).bind LexerConfig.ofJson?

end ParserKit
