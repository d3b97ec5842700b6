import ParserKit.Grammar.Element
import ParserKit.Stream.Basic

/-!
# Parses in progress

* `Failure`: the latest terminal that did not match, and what was found instead.
* `Outcome`: whether an element matched, and the nodes that it yields.
* **`Context`**: what changes during a parse: the token stream and the latest failure.
* `Context.settle`: ends a transaction. A match commits it, everything else undoes it.
* `Attempt`, `transaction`: what an element does in a context, with or without a transaction.
-/

namespace ParserKit

/-- A terminal that did not match. `found` is the token in its place, if there was one. -/
structure Failure where
  expected : Expected
  found : Option Token
deriving DecidableEq

def Failure.toError (f : Failure) : ParseError :=
  match f.found with
  | some token => .unexpectedToken token
  | none => .noTokenFound f.expected

/-- Whether an element matched, and with which nodes. A match may yield none. -/
inductive Outcome where
  | matched (nodes : List Node)
  | notMatched

namespace Outcome

def isMatch : Outcome → Bool
  | matched _ => true
  | notMatched => false

def mapNodes (f : Node → Node) : Outcome → Outcome
  | matched nodes => matched (nodes.map f)
  | notMatched => notMatched

end Outcome

/-- What changes during a parse. -/
structure Context where
  stream : TokenStream
  lastFailure : Option Failure := none

namespace Context

/-- Notes a failure; only the latest one is kept. -/
def recordFailure (cx : Context) (expected : Expected) (found : Option Token) : Context :=
  { cx with lastFailure := some ⟨expected, found⟩ }

def clearFailure (cx : Context) : Context := { cx with lastFailure := none }

def begin (cx : Context) : Context := { cx with stream := cx.stream.begin }

/-- Ends a transaction of the stream: commits it after a match, and undoes it otherwise. -/
def settle (result : Except ParseError Outcome) (cx : Context) : Context :=
  match result with
  | .ok (.matched _) => { cx with stream := cx.stream.commit }
  | _ => { cx with stream := cx.stream.rollback }

end Context

/-- What an element does in a context. There is no answer if it does not come to an end. -/
abbrev Attempt := Context → Option (Except ParseError Outcome × Context)

def transaction (attempt : Attempt) : Attempt := fun cx =>
  match attempt cx.begin with
  | some (result, cx) => some (result, cx.settle result)
  | none => none

end ParserKit
