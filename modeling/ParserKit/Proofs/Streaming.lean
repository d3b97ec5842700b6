import ParserKit.Parser
import ParserKit.Proofs.Grammar.Agreement
import ParserKit.Proofs.Lexer.Lossless

/-!
# Parsing on demand

* `TokenInput.prompt_tokenizer`: a tokenizer that never pauses is an input that never pauses.
* `fst_parse_tokenizer`: a parse that asks a tokenizer for tokens on demand, and one of the list of its
  tokens, have the same result.
* `Parser.parseEagerly`: makes all tokens of a text before the parse.
* **`Parser.parse_eq_parseEagerly`**: a text, and a file with it, give the same result as its tokens.
-/

namespace ParserKit

/-! ## Tokenizers as inputs -/

/-- **A tokenizer that never pauses is an input that never pauses.** -/
theorem TokenInput.prompt_tokenizer {t : Tokenizer} (h : t.Prompt) : (tokenizer t).Prompt := by
  refine Reliable.prompt (P := fun i => ∃ t, i = tokenizer t ∧ t.Prompt) ⟨?_, ?_⟩ ⟨t, rfl, h⟩
  · rintro _ ⟨t, rfl, h⟩
    obtain ⟨hmore, -, hp⟩ := h.hasMore
    exact ⟨hmore, _, rfl, hp⟩
  · rintro _ ⟨t, rfl, h⟩
    obtain ⟨hnext, -, hp⟩ := h.next
    exact ⟨hnext, _, rfl, hp⟩

/-- Whether tokens are asked for on demand or listed before, the tree or the error is the same. -/
theorem fst_parse_tokenizer (g : Grammar) {t : Tokenizer} (h : t.Prompt) :
    (g.parse (.ofInput (.tokenizer t))).map Prod.fst = (g.parse (.ofTokens t.rest)).map Prod.fst := by
  have halike : (TokenStream.ofInput (.tokenizer t)).Alike (.ofTokens t.rest) := ⟨rfl, rfl, rfl, rfl⟩
  have hsize : (TokenStream.ofInput (.tokenizer t)).rest.length ≤
      (TokenStream.ofInput (.tokenizer t)).size := by
    show t.rest.length ≤ 0 + t.size
    rw [Nat.zero_add]
    exact h.length_rest_le
  have hsize' : (TokenStream.ofTokens t.rest).rest.length ≤ (TokenStream.ofTokens t.rest).size :=
    Nat.le_of_eq (Nat.zero_add _).symm
  exact Grammar.fst_parse_eq halike (TokenInput.prompt_tokenizer h)
    (TokenInput.prompt_tokens _) g hsize hsize'

/-! ## Parsers -/

namespace Parser

variable [PatternEngine]

/-- Makes all tokens of a text, and then parses them. -/
def parseEagerly (p : Parser) (text : String) : Option (Except ParserError Node) :=
  match p.tokenize text with
  | .error e => some (.error e)
  | .ok tokens =>
    (p.grammar.parse (.ofTokens tokens)).map fun (result, _) => result.mapError ParserError.parse

theorem tokenize_error (p : Parser) {e : LexerError} (hc : p.lexer.compile = .error e)
    (text : String) : p.tokenize text = .error (.lexer e) := by
  rw [tokenize, LexerConfig.tokenize, LexerConfig.tokenizer, hc]
  rfl

theorem tokenize_ok (p : Parser) {r : Rules} (hc : p.lexer.compile = .ok r) (text : String) :
    p.tokenize text = .ok (r.lex text) := by
  rw [tokenize, p.lexer.tokenize_eq hc]
  rfl

theorem parse_ok (p : Parser) {r : Rules} (hc : p.lexer.compile = .ok r) {source source' : Source}
    (ha : source.acquire = .ok source') :
    p.parse source = (p.grammar.parse (.ofInput (.tokenizer (.ofRules r source')))).map
      fun (result, _) => result.mapError ParserError.parse := by
  have hstream : (TokenStream.ofInput (.tokenizer (.ofRules r source))).acquire =
      (.ok (), .ofInput (.tokenizer (.ofRules r source'))) := by
    simp [TokenStream.acquire, TokenInput.acquire, Tokenizer.acquire, Tokenizer.ofRules,
      TokenStream.ofInput, Cursor.ofSource, ha]
  rw [parse, parseSource, LexerConfig.tokenizer, hc]
  simp only [Except.map, hstream]

/-- **A parse on demand has the result of a parse of all tokens**, whatever the source is that shows
the text once it is acquired. -/
theorem parse_eq_of_ahead (p : Parser) {source source' : Source} {text : String}
    (ha : source.acquire = .ok source') (hp : source'.Prompt)
    (hahead : source'.ahead = locate .start text.toList) : p.parse source = p.parseEagerly text := by
  unfold parseEagerly
  cases hc : p.lexer.compile with
  | error e =>
    rw [p.tokenize_error hc, parse, parseSource, LexerConfig.tokenizer, hc]
    rfl
  | ok r =>
    have hparse := fst_parse_tokenizer p.grammar (Tokenizer.prompt_ofRules r hp)
    rw [Tokenizer.rest_ofRules r hp, hahead] at hparse
    rw [p.parse_ok hc ha, p.tokenize_ok hc]
    have hmap := congrArg (Option.map (Except.mapError ParserError.parse)) hparse
    rwa [Option.map_map, Option.map_map] at hmap

/-- **Parsing on demand and parsing the list of all tokens give the same result**, whether the text is
in memory or in a file: the same tree, or the same error. There is no answer exactly where the root
rule does not come to an end on the tokens. -/
theorem parse_eq_parseEagerly (p : Parser) (text : String) :
    p.parse (.ofString text) = p.parseEagerly text ∧
      p.parse (.ofFile (.bytes text.toUTF8)) = p.parseEagerly text ∧
      (p.parseEagerly text = none ↔ ∃ tokens root, p.tokenize text = .ok tokens ∧
        p.grammar.root? = some root ∧
        ¬ ∃ r cx', p.grammar.Yields root.element ⟨.ofTokens tokens, none⟩ r cx') := by
  refine ⟨p.parse_eq_of_ahead rfl trivial rfl, ?_, ?_⟩
  · have ha : (Source.ofFile (.bytes text.toUTF8)).acquire =
        .ok (.file (.bytes text.toUTF8) (some (.ofString text))) := by
      rw [Source.ofFile, Source.acquire, FileEntry.read_toUTF8]
      rfl
    exact p.parse_eq_of_ahead ha trivial rfl
  · unfold parseEagerly
    cases ht : p.tokenize text with
    | error e => simp
    | ok tokens =>
      have hsize : (TokenStream.ofTokens tokens).rest.length ≤ (TokenStream.ofTokens tokens).size :=
        Nat.le_of_eq (Nat.zero_add _).symm
      dsimp only
      rw [Option.map_eq_none_iff, Grammar.parse_eq_none_iff (TokenInput.prompt_tokens tokens) hsize]
      simp

end Parser

end ParserKit
