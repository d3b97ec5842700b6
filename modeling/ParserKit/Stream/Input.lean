import ParserKit.Lexer.Tokenizer

/-!
# Token inputs

* **`TokenInput`**: where a token stream takes its tokens from. There are three kinds: a list of
  tokens, a feed in which tokens arrive one by one, possibly with gaps, and a tokenizer.
* `TokenInput.acquire`, `TokenInput.release`, `TokenInput.hasMore`, `TokenInput.next`: the
  operations on an input.
* `TokenInput.pull`: reads several tokens.
-/

namespace ParserKit

/-- A producer of tokens. In a feed, `none` is a gap: a read at which no token arrives. -/
inductive TokenInput where
  | tokens (rest : List Token)
  | feed (arrivals : List (Option Token))
  | tokenizer (t : Tokenizer)

namespace TokenInput

def acquire : TokenInput → Except SourceError Unit × TokenInput
  | .tokenizer t => let (result, t) := t.acquire; (result, .tokenizer t)
  | i => (.ok (), i)

def release : TokenInput → TokenInput
  | .tokenizer t => .tokenizer t.release
  | i => i

/-- Whether the input is not exhausted. At a gap the next read yields nothing all the same. -/
def hasMore : TokenInput → Bool × TokenInput
  | .tokens rest => (!rest.isEmpty, .tokens rest)
  | .feed arrivals => (!arrivals.isEmpty, .feed arrivals)
  | .tokenizer t => let (more, t) := t.hasMore; (more, .tokenizer t)

def next : TokenInput → Option Token × TokenInput
  | .tokens [] => (none, .tokens [])
  | .tokens (t :: rest) => (some t, .tokens rest)
  | .feed [] => (none, .feed [])
  | .feed (arrival :: arrivals) => (arrival, .feed arrivals)
  | .tokenizer t => let (token, t) := t.next; (token, .tokenizer t)

/-- Reads tokens, at most `n` of them, up to the end or the first gap. -/
def pull : Nat → TokenInput → List Token × TokenInput
  | 0, i => ([], i)
  | n + 1, i =>
    match i.hasMore with
    | (false, i) => ([], i)
    | (true, i) =>
      match i.next with
      | (none, i) => ([], i)
      | (some t, i) => let (more, i) := pull n i; (t :: more, i)

/-- An upper bound for the number of tokens still to come. -/
def size : TokenInput → Nat
  | .tokens rest => rest.length
  | .feed arrivals => arrivals.length
  | .tokenizer t => t.size

end TokenInput

end ParserKit
