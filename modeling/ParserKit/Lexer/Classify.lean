import ParserKit.Lexer.Rules
import ParserKit.Token

/-!
# Classification of spans

A span is a run of characters between two boundaries. It becomes one token if a terminal pattern
matches it, and is split at a symbol otherwise.

* `longest`: the first among the longest members of a list.
* `Rules.symbolAt`, `Rules.sites`: the symbols that begin a span, and the places at which one
  occurs.
* `Rules.site`: the place at which a span is split. Where a terminal pattern matches what lies to
  the left of a symbol, the left part is as long as possible; else the longest symbol decides.
* **`Rules.classify`**: the tokens of a span.
-/

namespace ParserKit

/-- The first among the longest members of a list. -/
def longest {α : Type} (length : α → Nat) : List α → Option α
  | [] => none
  | a :: as =>
    match longest length as with
    | none => some a
    | some b => if length a < length b then some b else some a

theorem longest_mem {α : Type} {length : α → Nat} {as : List α} {a : α}
    (h : longest length as = some a) : a ∈ as := by
  induction as generalizing a with
  | nil => simp [longest] at h
  | cons b bs ih =>
    unfold longest at h
    split at h
    · simp_all
    · next c hc =>
      split at h
      · simp_all
      · simp_all

/-- The token of a span, which starts at its first character and ends at its last. -/
def Span.token (type : String) (first : Located) (more : Span) : Token :=
  .ofType (Span.content (first :: more)) type first.position
    ((first :: more).getLast (List.cons_ne_nil _ _)).position

/-- A place in a span at which a symbol begins. -/
structure SymbolSite where
  offset : Nat
  symbol : SymbolRule

namespace Rules

variable (r : Rules)

/-- The longest symbol with which a text begins; of equally long ones the first declared. -/
def symbolAt (text : List Char) : Option SymbolRule :=
  longest (fun s => s.sequence.length) (r.symbols.filter fun s => s.sequence.chars.isPrefixOf text)

/-- The places of a text at which a symbol begins, where the text itself begins at `offset`. -/
def sites (offset : Nat) : List Char → List SymbolSite
  | [] => []
  | c :: cs =>
    match r.symbolAt (c :: cs) with
    | some s => ⟨offset, s⟩ :: sites (offset + 1) cs
    | none => sites (offset + 1) cs

/-- The type tags of all terminal patterns that match a text, in order of declaration. -/
def terminalNames (text : List Char) : List String :=
  (r.terminals.filter fun t => t.occursIn text).map TerminalRule.name

def isTerminal (text : List Char) : Bool := r.terminals.any fun t => t.occursIn text

/-- Whether there is nothing to the left of a place, or some terminal pattern matches it. -/
def leftMatches (text : List Char) (s : SymbolSite) : Bool :=
  s.offset == 0 || r.isTerminal (text.take s.offset)

/-- The place at which a text that no terminal pattern matches is split. -/
def site (text : List Char) : Option SymbolSite :=
  let sites := r.sites 0 text
  match sites.reverse.find? (r.leftMatches text) with
  | some s => some s
  | none => longest (fun s => s.symbol.sequence.length) sites

theorem offset_lt_of_mem_sites {text : List Char} {k : Nat} {s : SymbolSite}
    (h : s ∈ r.sites k text) : s.offset < k + text.length := by
  induction text generalizing k with
  | nil => simp [sites] at h
  | cons c cs ih =>
    unfold sites at h
    simp only [List.length_cons]
    split at h
    · rcases List.mem_cons.1 h with rfl | h
      · simp
      · have := ih h; omega
    · have := ih h; omega

/-- **A text is split at a place inside it.** -/
theorem offset_lt_of_site {text : List Char} {s : SymbolSite} (h : r.site text = some s) :
    s.offset < text.length := by
  have hmem : s ∈ r.sites 0 text := by
    unfold site at h
    simp only at h
    split at h
    · next hfind =>
      have := List.mem_of_find?_eq_some hfind
      simp_all
    · exact longest_mem h
  simpa using r.offset_lt_of_mem_sites hmem

/-- The type tags of a token that terminal patterns match: the first one, or all of them. -/
def withTerminals (t : Token) (names : List String) : Token :=
  if r.multiType then names.foldl Token.addType t else t

/-- The tokens of a span before keywords are considered. -/
def split (span : Span) : List Token :=
  match span with
  | [] => []
  | first :: more =>
    match r.terminalNames (Span.chars (first :: more)) with
    | name :: names => [r.withTerminals (Span.token name first more) names]
    | [] =>
      match h : r.site (Span.chars (first :: more)) with
      | none => [Span.token terminalName first more]
      | some s =>
        have := r.offset_lt_of_site h
        let left := (first :: more).take s.offset
        let right := (first :: more).drop s.offset
        split left ++
          (match right.take s.symbol.sequence.length with
          | [] => []
          | first :: more => [Span.token s.symbol.name first more]) ++
          split (right.drop s.symbol.sequence.length)
termination_by span.length
decreasing_by
  all_goals
    simp only [Span.chars, List.length_map, List.length_cons] at this
    simp only [List.length_take, List.length_drop, List.length_cons, Marker.length]
    omega

def keywordOf (content : String) : Option KeywordRule :=
  if r.caseSensitive then r.keywords.find? fun k => k.text == content
  else
    let capital := upper content
    r.keywords.find? fun k => k.tag == capital

def applyKeyword (t : Token) : Token :=
  match r.keywordOf t.content with
  | none => t
  | some k => if r.multiType then t.addType k.tag else t.setType k.tag

/-- **The tokens of a span.** -/
def classify (span : Span) : List Token := (r.split span).map r.applyKeyword

end Rules

end ParserKit
