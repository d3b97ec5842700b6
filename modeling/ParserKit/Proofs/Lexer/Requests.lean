import ParserKit.Pattern.Parse
import ParserKit.Proofs.Lexer.WholeText

/-!
# Requests to a tokenizer

* `TokenRequest`, `TokenAnswer`, `Tokenizer.trace`: sequences of requests and what they return.
* `answersFrom`: the answers of something that holds all tokens as a list.
* **`Tokenizer.Prompt.trace_eq`**: a tokenizer that never pauses answers from the list of its tokens.
* **`LexerConfig.trace_tokenizer`**: so does a tokenizer over a text, from the tokens that a lexer
  with the whole text in view finds.
-/

namespace ParserKit

/-! ## Requests and answers -/

/-- A request to a tokenizer. -/
inductive TokenRequest where
  | hasMore
  | next

/-- What a request returns. -/
inductive TokenAnswer where
  | flag (b : Bool)
  | token (t : Option Token)

namespace Tokenizer

def answer (t : Tokenizer) : TokenRequest → TokenAnswer × Tokenizer
  | .hasMore => let (b, t) := t.hasMore; (.flag b, t)
  | .next => let (token, t) := t.next; (.token token, t)

def run (t : Tokenizer) (requests : List TokenRequest) : Tokenizer :=
  requests.foldl (fun t request => (t.answer request).2) t

def trace : List TokenRequest → Tokenizer → List TokenAnswer
  | [], _ => []
  | request :: requests, t =>
    let (answer, t) := t.answer request
    answer :: trace requests t

end Tokenizer

/-- The answers from a list of tokens: each request for the next one takes it from the front. -/
def answersFrom : List Token → List TokenRequest → List TokenAnswer
  | _, [] => []
  | tokens, .hasMore :: requests => .flag (!tokens.isEmpty) :: answersFrom tokens requests
  | tokens, .next :: requests => .token tokens.head? :: answersFrom tokens.tail requests

/-! ## Answers of prompt tokenizers -/

namespace Tokenizer

variable {t : Tokenizer}

theorem Prompt.answer (h : t.Prompt) (request : TokenRequest) :
    (t.answer request).2.Prompt ∧ (t.answer request).2.rest <:+ t.rest := by
  cases request with
  | hasMore =>
    obtain ⟨-, hrest, hp⟩ := h.hasMore
    exact ⟨hp, hrest ▸ List.suffix_refl _⟩
  | next =>
    obtain ⟨-, hrest, hp⟩ := h.next
    exact ⟨hp, hrest ▸ List.tail_suffix _⟩

theorem Prompt.run (h : t.Prompt) (requests : List TokenRequest) :
    (t.run requests).Prompt ∧ (t.run requests).rest <:+ t.rest := by
  induction requests generalizing t with
  | nil => exact ⟨h, List.suffix_refl _⟩
  | cons request requests ih =>
    obtain ⟨hp, hs⟩ := h.answer request
    obtain ⟨hp', hs'⟩ := ih hp
    exact ⟨hp', hs'.trans hs⟩

/-- **A prompt tokenizer answers from the list of its tokens.** -/
theorem Prompt.trace_eq (h : t.Prompt) (requests : List TokenRequest) :
    t.trace requests = answersFrom t.rest requests := by
  induction requests generalizing t with
  | nil => rfl
  | cons request requests ih =>
    cases request with
    | hasMore =>
      obtain ⟨hm, hrest, hp⟩ := h.hasMore
      show .flag t.hasMore.1 :: t.hasMore.2.trace requests = _
      rw [ih hp, hm, hrest]
      rfl
    | next =>
      obtain ⟨hn, hrest, hp⟩ := h.next
      show .token t.next.1 :: t.next.2.trace requests = _
      rw [ih hp, hn, hrest]
      rfl

end Tokenizer

/-! ## Tokenizers over texts -/

/-- **A tokenizer over a text gives the tokens that a lexer with the whole text in view finds**, in
order and each of them once, however requests alternate. It says that there is a next token just
where the next request returns one. After it has returned none it returns none for ever. -/
theorem LexerConfig.trace_tokenizer [PatternEngine] (c : LexerConfig) {r : Rules}
    (h : c.compile = .ok r) (text : String) :
    ∃ t, c.tokenizer (.ofString text) = .ok t ∧ ∀ requests,
      t.trace requests = answersFrom (r.lex text) requests ∧
      ((t.run requests).hasMore.1 = true ↔
        ∃ token, (t.run requests).hasMore.2.next.1 = some token) ∧
      ((t.run requests).next.1 = none →
        ∀ later, ((t.run requests).next.2.run later).next.1 = none) := by
  refine ⟨.ofRules r (.ofString text), by rw [tokenizer, h]; rfl, fun requests => ?_⟩
  have hp : (Tokenizer.ofRules r (.ofString text)).Prompt := Tokenizer.prompt_ofRules r trivial
  have hrest : (Tokenizer.ofRules r (.ofString text)).rest = r.lex text :=
    Tokenizer.rest_ofRules r trivial
  obtain ⟨hrun, -⟩ := hp.run requests
  refine ⟨by rw [hp.trace_eq, hrest], ?_, fun hnone later => ?_⟩
  · obtain ⟨hm, hmrest, hmp⟩ := hrun.hasMore
    rw [hm, hmp.next.1, hmrest]
    cases ((Tokenizer.ofRules r (.ofString text)).run requests).rest <;> simp
  · obtain ⟨hn, hnrest, hnp⟩ := hrun.next
    obtain ⟨hlp, hl⟩ := hnp.run later
    have hnil : ((Tokenizer.ofRules r (.ofString text)).run requests).rest = [] :=
      List.head?_eq_none_iff.mp (hn.symm.trans hnone)
    rw [hnrest, hnil] at hl
    rw [hlp.next.1, List.suffix_nil.mp hl]
    rfl

theorem trace_of_quoted_text :
    letI := Expr.engine
    let c : LexerConfig := (LexerConfig.addComment {} "/*" "*/" true).addString "S" "'" (some "''")
    ∃ r, c.compile = .ok r ∧ ∃ t, c.tokenizer (.ofString "'a'/*'") = .ok t ∧
      t.trace [.hasMore, .next, .next, .hasMore] =
        [.flag true, .token (some (.ofType "'a'" "S" ⟨1, 1, 0⟩ ⟨1, 3, 2⟩)), .token none,
          .flag false] := by
  intro c
  let : PatternEngine := Expr.engine
  obtain ⟨t, ht, h⟩ := LexerConfig.trace_tokenizer c
    (r := ⟨" \t\r\n".toList, true, false, [⟨⟨'/', ['*']⟩, ⟨'*', ['/']⟩, true⟩],
      [⟨"S", ⟨'\'', []⟩, some ⟨'\'', ['\'']⟩⟩], [], [], []⟩) rfl "'a'/*'"
  refine ⟨_, rfl, t, ht, (h _).1.trans ?_⟩
  -- the string is closed, the comment after it is not
  simp +decide [Rules.lex, locate, Position.start, Position.advance, Rules.lexFrom_cons,
    Rules.outlook_comment_cons, Rules.outlook_comment_nil, Rules.outlook_string_cons,
    Marker.begins, Marker.chars, Marker.length, Option.filter, Span.tokens, Span.token,
    Span.content, answersFrom]

end ParserKit
