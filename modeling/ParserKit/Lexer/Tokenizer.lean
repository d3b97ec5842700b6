import ParserKit.Lexer.Scan

/-!
# Tokenizers

* **`Tokenizer`**: rules at work on a character source. Tokens are made on demand: each request
  reads just as far as the next token needs.
* `Tokenizer.hasMore`, `Tokenizer.next`, `Tokenizer.collect`: requests for tokens.
* `Tokenizer.acquire`, `Tokenizer.release`: pass to the source. Characters in view survive both,
  complete tokens only `release`.
* **`LexerConfig.tokenize`**: the tokens of a text.
-/

namespace ParserKit

/-- Rules at work on a source, with the tokens that are complete and have not been asked for. -/
structure Tokenizer where
  cursor : Cursor
  rules : Rules
  queue : List Token

namespace Tokenizer

/-- A tokenizer that has read nothing. Its window shows as many characters as the rules need. -/
def ofRules (rules : Rules) (source : Source) : Tokenizer :=
  ⟨.ofSource source rules.lookahead, rules, []⟩

/-- Makes at least one token available, if there is one. -/
def prepare (t : Tokenizer) : Tokenizer :=
  match t.queue with
  | [] =>
    let s := t.rules.scan ⟨t.cursor, .normal, [], []⟩
    { t with cursor := s.cursor, queue := s.queue }
  | _ :: _ => t

def hasMore (t : Tokenizer) : Bool × Tokenizer :=
  let t := t.prepare
  (!t.queue.isEmpty, t)

def next (t : Tokenizer) : Option Token × Tokenizer :=
  let t := t.prepare
  match t.queue with
  | [] => (none, t)
  | token :: queue => (some token, { t with queue })

/-- Acquires the source. The complete tokens are dropped, also if the source refuses. -/
def acquire (t : Tokenizer) : Except SourceError Unit × Tokenizer :=
  match t.cursor.source.acquire with
  | .ok source => (.ok (), { t with queue := [], cursor := { t.cursor with source } })
  | .error e => (.error e, { t with queue := [] })

def release (t : Tokenizer) : Tokenizer :=
  { t with cursor := { t.cursor with source := t.cursor.source.release } }

/-- An upper bound for the number of tokens still to come. -/
def size (t : Tokenizer) : Nat := t.queue.length + t.cursor.size

def take : Nat → Tokenizer → List Token × Tokenizer
  | 0, t => ([], t)
  | n + 1, t =>
    match t.next with
    | (none, t) => ([], t)
    | (some token, t) => let (more, t) := take n t; (token :: more, t)

def collect (t : Tokenizer) : List Token × Tokenizer := t.take (t.size + 1)

end Tokenizer

section Engine

variable [PatternEngine]

def LexerConfig.tokenizer (c : LexerConfig) (source : Source) : Except LexerError Tokenizer :=
  c.compile.map (Tokenizer.ofRules · source)

/-- **The tokens of a text.** -/
def LexerConfig.tokenize (c : LexerConfig) (text : String) : Except LexerError (List Token) :=
  (c.tokenizer (.ofString text)).map fun t => t.collect.1

end Engine

end ParserKit
