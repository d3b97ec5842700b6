import ParserKit.Grammar.Context

/-!
# Attempting elements

* `matchTerminal`, `inOrder`, `firstOf`, `iterate`, `atMostOnce`, `atLeastOnce`, `underRule`: what
  the kinds of elements do, given what their parts do.
* **`Grammar.attemptWithin`**: what an element does in a context. An argument bounds the depth of
  the recursion; there is no answer where it does not suffice.
* `Grammar.attempt`: the same with a bound that is computed.
* `Grammar.depthBound`: a bound that suffices for every grammar without left recursion. Between two
  tokens that are consumed no rule is entered twice, so that the parts of all rules together bound
  the depth from one token to the next.
-/

namespace ParserKit

/-! ## The kinds of elements -/

/-- Matches one token of a type. The node has the text of the token and its type as an attribute. A
token that does not match is noted as the failure, and a match clears it. -/
def Grammar.matchTerminal (g : Grammar) (type : String) (cx : Context) :
    Except ParseError Outcome × Context :=
  let (next, stream) := cx.stream.lookup
  let cx := { cx with stream }
  match next with
  | none => (.ok .notMatched, cx.recordFailure (.type type) none)
  | some token =>
    if token.hasType type then
      let node := (Node.ofText terminalName token.content).setAttr "type" type
      match g.transformTerminal type node with
      | .ok node => (.ok (.matched [node]), ⟨cx.stream.consume.2, none⟩)
      | .error e => (.error e, cx)
    else (.ok .notMatched, cx.recordFailure (.type type) (some token))

def withId (id : String) (attempt : Attempt) : Attempt := fun cx =>
  match attempt cx with
  | some (.ok outcome, cx) => some (.ok (outcome.mapNodes (·.setId id)), cx)
  | other => other

/-- Attempts elements one after the other, as long as they match. -/
def inOrder (attempt : Element → Attempt) : List Element → Attempt
  | [], cx => some (.ok (.matched []), cx)
  | e :: es, cx =>
    match attempt e cx with
    | some (.ok (.matched nodes), cx) =>
      match inOrder attempt es cx with
      | some (.ok (.matched more), cx) => some (.ok (.matched (nodes ++ more)), cx)
      | other => other
    | other => other

/-- Attempts elements one after the other, until one matches. -/
def firstOf (attempt : Element → Attempt) : List Element → Attempt
  | [], cx => some (.ok .notMatched, cx)
  | e :: es, cx =>
    match attempt e cx with
    | some (.ok .notMatched, cx) => firstOf attempt es cx
    | other => other

/-- Repeats an attempt until it does not match, or matches without consuming anything. Yields the
nodes and the number of matches. The first argument bounds the number of repetitions. -/
def iterate (attempt : Attempt) :
    Nat → Context → Option (Except ParseError (List Node × Nat) × Context)
  | 0, _ => none
  | n + 1, cx =>
    let before := cx.stream.index
    match transaction attempt cx with
    | none => none
    | some (.error e, cx) => some (.error e, cx)
    | some (.ok .notMatched, cx) => some (.ok ([], 0), cx)
    | some (.ok (.matched nodes), cx) =>
      if cx.stream.index = before then some (.ok (nodes, 1), cx)
      else
        match iterate attempt n cx with
        | some (.ok (more, count), cx) => some (.ok (nodes ++ more, count + 1), cx)
        | other => other

def anyNumber (attempt : Attempt) (bound : Nat) : Attempt := fun cx =>
  match iterate attempt bound cx with
  | some (.ok (nodes, _), cx) => some (.ok (.matched nodes), cx)
  | some (.error e, cx) => some (.error e, cx)
  | none => none

def atLeastOnce (attempt : Attempt) (bound : Nat) : Attempt := fun cx =>
  match iterate attempt bound cx with
  | some (.ok (_, 0), cx) => some (.ok .notMatched, cx)
  | some (.ok (nodes, _ + 1), cx) => some (.ok (.matched nodes), cx)
  | some (.error e, cx) => some (.error e, cx)
  | none => none

def atMostOnce (attempt : Attempt) : Attempt := fun cx =>
  match transaction attempt cx with
  | some (.ok .notMatched, cx) => some (.ok (.matched []), cx)
  | other => other

/-- Gathers the nodes of an attempt under one node, which is then transformed. -/
def underRule (name : String) (transform : Option Transform) (attempt : Attempt) : Attempt :=
  fun cx =>
    match attempt cx with
    | some (.ok (.matched children), cx) =>
      let node := { Node.ofName name with children }
      match transform.elim (.ok node) (· node) with
      | .ok node => some (.ok (.matched [node]), cx)
      | .error e => some (.error e, cx)
    | other => other

/-! ## Elements -/

/-- **What an element does in a context**, if the depth of the recursion does not exceed a bound. -/
def Grammar.attemptWithin (g : Grammar) : Nat → Element → Attempt
  | 0, _, _ => none
  | n + 1, e, cx =>
    match e with
    | .terminal type => some (g.matchTerminal type cx)
    | .ref name =>
      match g.rule? name with
      | some r => g.attemptWithin n r.element cx
      | none => some (.error (.undefinedRule name), cx)
    | .rule name content transform =>
      transaction (underRule name transform (g.attemptWithin n content)) cx
    | .tagged id e => withId id (g.attemptWithin n e) cx
    | .sequence es => transaction (inOrder (g.attemptWithin n) es) cx
    | .alternatives es => transaction (firstOf (g.attemptWithin n) es) cx
    | .optional e => atMostOnce (g.attemptWithin n e) cx
    | .many e => anyNumber (g.attemptWithin n e) n cx
    | .oneOrMore e => transaction (atLeastOnce (g.attemptWithin n e) n) cx

def Grammar.weight (g : Grammar) (e : Element) : Nat :=
  g.rules.values.foldr (fun r n => r.weight + n) e.weight

def Grammar.depthBound (g : Grammar) (e : Element) (cx : Context) : Nat :=
  (cx.stream.size + 2) * (g.weight e + 2)

/-- What an element does in a context. There is no answer for a left recursion. -/
def Grammar.attempt (g : Grammar) (e : Element) : Attempt := fun cx =>
  g.attemptWithin (g.depthBound e cx) e cx

end ParserKit
