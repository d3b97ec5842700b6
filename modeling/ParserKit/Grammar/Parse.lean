import ParserKit.Grammar.Attempt

/-!
# Parsing with the root rule

* `Grammar.attemptRoot`: what the root rule does at the start of a parse, with the latest failure.
  Tokens may remain.
* **`Grammar.parse`**: the tree of a whole token stream.
-/

namespace ParserKit

namespace Grammar

/-- Attempts the root rule on the next tokens. -/
def attemptRoot (g : Grammar) (s : TokenStream) :
    Option (Except ParseError (Outcome × Option Failure) × TokenStream) :=
  match g.root? with
  | none => some (.error .noRootRule, s)
  | some root =>
    match g.attempt root.element ⟨s, none⟩ with
    | some (.ok outcome, cx) => some (.ok (outcome, cx.lastFailure), cx.stream)
    | some (.error e, cx) => some (.error e, cx.stream)
    | none => none

def mismatchError (failure : Option Failure) (s : TokenStream) : ParseError × TokenStream :=
  match failure with
  | some f => (f.toError, s)
  | none =>
    match s.lookup with
    | (some token, s) => (.unexpectedToken token, s)
    | (none, s) => (.other "root rule did not match", s)

/-- The result of a parse whose root rule matched: no token may be left. -/
def complete (nodes : List Node) (s : TokenStream) : Except ParseError Node × TokenStream :=
  match s.lookup with
  | (some token, s) => (.error (.unexpectedToken token), s)
  | (none, s) =>
    match nodes with
    | node :: _ => (.ok node, s)
    | [] => (.error (.other "root rule produced no node"), s)

/-- **Parses a whole token stream with the root rule.** -/
def parse (g : Grammar) (s : TokenStream) : Option (Except ParseError Node × TokenStream) :=
  match g.attemptRoot s with
  | some (.ok (.matched nodes, _), s) => some (complete nodes s)
  | some (.ok (.notMatched, failure), s) =>
    let (e, s) := mismatchError failure s
    some (.error e, s)
  | some (.error e, s) => some (.error e, s)
  | none => none

end Grammar

end ParserKit
