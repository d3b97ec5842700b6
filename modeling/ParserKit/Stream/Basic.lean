import ParserKit.Lookahead
import ParserKit.Panic
import ParserKit.ParseError
import ParserKit.Stream.Input

/-!
# Token streams

A token stream reads an input through a lookahead buffer and can undo what it consumed. Consumed
tokens are recorded in the innermost open transaction; outside of all transactions there is a
record as well.

* **`TokenStream`**: the state of a stream.
* `TokenStream.fill`: reads ahead. The lookahead never shrinks: it is the largest that was ever
  asked for.
* `TokenStream.lookup`, `TokenStream.lookupMany`, `TokenStream.checkFor`: look ahead.
* `TokenStream.consume`, `TokenStream.consumeMany`, `TokenStream.consumeExpected`: move on.
* `TokenStream.consumeManyWithin`: first makes room for the tokens asked for.
* `TokenStream.begin`, `TokenStream.commit`, `TokenStream.rollback`: transactions. Committing an
  inner one leaves it to those around it to be undone.
-/

namespace ParserKit

/-- A stream of tokens. `record` holds the tokens consumed in the innermost transaction and `outer`
those of the transactions around it, the innermost first; records are newest first. -/
structure TokenStream where
  input : TokenInput
  buffer : List Token
  lookahead : Nat
  record : List Token
  outer : List (List Token)
  index : Nat

namespace TokenStream

def ofInput (input : TokenInput) : TokenStream := ⟨input, [], 1, [], [], 0⟩

def ofTokens (tokens : List Token) : TokenStream := ofInput (.tokens tokens)

def depth (s : TokenStream) : Nat := s.outer.length

def lastBuffered? (s : TokenStream) : Option Token := s.buffer.getLast?

/-- An upper bound for the number of tokens still to come. -/
def size (s : TokenStream) : Nat := s.buffer.length + s.input.size

/-! ## The input -/

def acquire (s : TokenStream) : Except SourceError Unit × TokenStream :=
  let (result, input) := s.input.acquire
  (result, { s with input })

def release (s : TokenStream) : TokenStream := { s with input := s.input.release }

/-! ## Looking ahead -/

/-- Reads ahead until the buffer holds `n` tokens, and as many as were ever asked for. -/
def fill (s : TokenStream) (n : Nat) : TokenStream :=
  let lookahead := max s.lookahead n
  match shortfall s.buffer lookahead with
  | 0 => { s with lookahead }
  | lacking + 1 =>
    let (read, input) := s.input.pull (lacking + 1)
    { s with lookahead, input, buffer := s.buffer ++ read }

def hasMore (s : TokenStream) : Bool × TokenStream :=
  let s := s.fill 1
  (!s.buffer.isEmpty, s)

def lookup (s : TokenStream) : Option Token × TokenStream :=
  let s := s.fill 1
  (s.buffer.head?, s)

def lookupMany (s : TokenStream) (n : Nat) : List Token × TokenStream :=
  let s := s.fill n
  (s.buffer.take n, s)

def checkFor (s : TokenStream) (expected : List Expected) : Option (List Token) × TokenStream :=
  let n := expected.length
  let s := s.fill n
  let tokens := s.buffer.take n
  (if tokens.length = n ∧ Expected.acceptAll expected tokens then some tokens else none, s)

/-! ## Consuming -/

def consume (s : TokenStream) : Option Token × TokenStream :=
  let s := s.fill 1
  match s.buffer with
  | [] => (none, s)
  | t :: buffer => (some t, { s with buffer, record := t :: s.record, index := s.index + 1 })

/-- Consumes the next `n` tokens, or as many as there are, once there is room for `n` of them. -/
def consumeMany : Nat → TokenStream → List Token × TokenStream
  | 0, s => ([], s)
  | n + 1, s =>
    match s.consume with
    | (none, s) => ([], s)
    | (some t, s) => let (more, s) := consumeMany n s; (t :: more, s)

/-- Makes room for `n` tokens, however many are left, and consumes them. -/
def consumeManyWithin (limit n : Nat) (s : TokenStream) :
    Except Panic (List Token × TokenStream) := do
  reserve limit n
  return s.consumeMany n

/-- The first expectation that the tokens fail to meet, as an error. -/
def mismatch? : List Expected → List Token → Option ParseError
  | [], _ => none
  | slot :: _, [] => some (.noTokenFound slot)
  | slot :: slots, t :: tokens =>
    if slot.accepts t then mismatch? slots tokens else some (.unexpectedToken t)

/-- Consumes the next tokens if they are as expected. As these are in the buffer by then, there is
room for so many. -/
def consumeExpected (s : TokenStream) (expected : List Expected) :
    Except ParseError (List Token) × TokenStream :=
  let s := s.fill expected.length
  match mismatch? expected s.buffer with
  | some e => (.error e, s)
  | none => let (tokens, s) := s.consumeMany expected.length; (.ok tokens, s)

/-! ## Transactions -/

def begin (s : TokenStream) : TokenStream := { s with record := [], outer := s.record :: s.outer }

/-- Commits the innermost transaction. Its record becomes part of the next one; outside of all
transactions the record is dropped. -/
def commit (s : TokenStream) : TokenStream :=
  match s.outer with
  | [] => { s with record := [] }
  | around :: outer => { s with record := s.record ++ around, outer }

/-- Undoes the innermost transaction: the tokens of its record come next again. -/
def rollback (s : TokenStream) : TokenStream :=
  let s := { s with index := s.index - s.record.length, buffer := s.record.reverse ++ s.buffer }
  match s.outer with
  | [] => { s with record := [] }
  | around :: outer => { s with record := around, outer }

end TokenStream

end ParserKit
