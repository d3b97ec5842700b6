import Mathlib
import ParserKit.Pattern.Parse
import ParserKit.Proofs.Lexer.Layout

/-!
# Nothing of a text is lost

* `Position.after`: the place that a text leads to, by counting.
* `Token.LiesIn`, `Rules.Accounts`: a token as a part of a text, and the stretches between tokens, by
  offsets.
* `Rules.Layout.accounts`: the layout of a text in these terms.
* `Tokenizer.Prompt.collect_eq`: a tokenizer that never pauses gives all of its tokens at once.
* **`LexerConfig.tokenize_lossless`**: nothing of a text is lost, doubled or misplaced.
-/

namespace ParserKit

/-! ## Places by counting -/

namespace Position

/-- The place that a text leads to: its lines are counted, the characters of its last line, and all
its characters. -/
def after (before : List Char) : Position :=
  ⟨1 + before.count '\n', 1 + (before.reverse.takeWhile (· ≠ '\n')).length, before.length⟩

theorem after_concat (before : List Char) (c : Char) :
    after (before ++ [c]) = (after before).advance c := by
  unfold after advance
  by_cases hc : c = '\n'
  · simp [hc, Nat.add_assoc]
  · simp [hc, Nat.add_assoc, Nat.add_comm 1]

theorem advanceOver_after (before more : List Char) :
    (after before).advanceOver more = after (before ++ more) := by
  induction more generalizing before with
  | nil => rw [List.append_nil]; rfl
  | cons c more ih =>
    rw [List.append_cons, ← ih, after_concat]
    rfl

@[simp] theorem after_offset (before : List Char) : (after before).offset = before.length := rfl

theorem compare_eq_lt {p q : Position} :
    compare p q = .lt ↔
      p.line < q.line ∨ p.line = q.line ∧ (p.column < q.column ∨
        p.column = q.column ∧ p.offset < q.offset) := by
  show (compare p.line q.line).then ((compare p.column q.column).then (compare p.offset q.offset)) =
    .lt ↔ _
  simp only [Ordering.then_eq_lt, Nat.compare_eq_lt, Nat.compare_eq_eq]

theorem compare_advance (p : Position) (c : Char) : compare p (p.advance c) = .lt := by
  rw [compare_eq_lt, advance]
  split <;> simp

theorem compare_trans {p q s : Position} (h : compare p q = .lt) (h' : compare q s = .lt) :
    compare p s = .lt := by
  rw [compare_eq_lt] at *
  omega

theorem compare_advanceOver (p : Position) (c : Char) (more : List Char) :
    compare p (p.advanceOver (c :: more)) = .lt := by
  induction more generalizing p c with
  | nil => exact p.compare_advance c
  | cons d more ih => exact compare_trans (p.compare_advance c) (ih (p.advance c) d)

end Position

theorem exists_of_locate_eq_append {p : Position} {text : List Char} {s s' : Span}
    (h : locate p text = s ++ s') :
    ∃ a b, text = a ++ b ∧ s = locate p a ∧ s' = locate (p.advanceOver a) b := by
  induction s generalizing p text with
  | nil => exact ⟨[], text, rfl, rfl, h.symm⟩
  | cons x s ih =>
    cases text with
    | nil => cases h
    | cons c text =>
      obtain ⟨rfl, hrest⟩ := List.cons.inj h
      obtain ⟨a, b, rfl, rfl, rfl⟩ := ih hrest
      exact ⟨c :: a, b, rfl, rfl, rfl⟩

/-! ## Tokens as parts of a text -/

/-- **A token lies in a text.** It is not empty, it has the characters from its start to its stop,
both included, and these are the places of its first and last character. -/
structure Token.LiesIn (t : Token) (text : List Char) : Prop where
  content_ne : t.content ≠ ""
  content_eq : t.content = String.ofList ((text.take (t.stop.offset + 1)).drop t.start.offset)
  start_eq : t.start = Position.after (text.take t.start.offset)
  stop_eq : t.stop = Position.after (text.take t.stop.offset)
  stop_lt : t.stop.offset < text.length

theorem Token.LiesIn.compare_eq_lt {t u : Token} {text : List Char} (ht : t.LiesIn text)
    (hu : u.LiesIn text) (h : t.stop.offset < u.start.offset) : compare t.stop u.start = .lt := by
  have hlt := ht.stop_lt
  have hsplit : text.take u.start.offset = text.take t.stop.offset ++
      (text.drop t.stop.offset).take (u.start.offset - t.stop.offset) := by
    rw [← List.take_add, Nat.add_sub_cancel' (Nat.le_of_lt h)]
  rw [hu.start_eq, hsplit, ← Position.advanceOver_after, ← ht.stop_eq]
  cases hmore : (text.drop t.stop.offset).take (u.start.offset - t.stop.offset) with
  | nil =>
    rw [List.take_eq_nil_iff, List.drop_eq_nil_iff] at hmore
    omega
  | cons c more => exact t.stop.compare_advanceOver c more

/-- **The stretches of a text between tokens**, from an offset on, are blank. The last one may end
with a comment or a string that is not closed. -/
inductive Rules.Accounts (r : Rules) (text : List Char) : Nat → List Token → Prop
  | last {offset gap tail} (h : text.drop offset = gap ++ tail) (hg : r.Blank gap tail)
      (ht : tail = [] ∨ r.Unclosed tail) : Accounts r text offset []
  | token {offset t ts}
      (hg : r.Blank ((text.take t.start.offset).drop offset) (text.drop t.start.offset))
      (h : Accounts r text (t.stop.offset + 1) ts) : Accounts r text offset (t :: ts)

section Layout

variable {t : Token} {before piece more : List Char}

theorem Token.Covers.places (h : t.Covers (locate (.after before) piece)) :
    t.start = .after before ∧ ∃ init c, piece = init ++ [c] ∧ t.stop = .after (before ++ init) := by
  cases hp : piece.getLast? with
  | none =>
    rw [List.getLast?_eq_none_iff] at hp
    subst hp
    cases h.start_eq
  | some c =>
    obtain ⟨init, rfl⟩ := List.getLast?_eq_some_iff.mp hp
    have hstart : (locate (.after before) (init ++ [c])).head?.map Located.position =
        some (.after before) := by
      cases init <;> rfl
    have hstop : (locate (.after before) (init ++ [c])).getLast?.map Located.position =
        some (.after (before ++ init)) := by
      rw [locate_append, Position.advanceOver_after, locate, locate, List.getLast?_concat]
      rfl
    exact ⟨Option.some.inj (h.start_eq.symm.trans hstart), init, c, rfl,
      Option.some.inj (h.stop_eq.symm.trans hstop)⟩

theorem Token.Covers.liesIn (h : t.Covers (locate (.after before) piece)) :
    t.LiesIn (before ++ (piece ++ more)) := by
  obtain ⟨hstart, init, c, rfl, hstop⟩ := h.places
  have hcontent := h.content_eq
  rw [Span.content, chars_locate] at hcontent
  constructor
  · rw [hcontent]
    simp
  · rw [hcontent, hstart, hstop, Position.after_offset, Position.after_offset, List.drop_take,
      List.drop_left, List.take_left' (by simp only [List.length_append, List.length_singleton]; omega)]
  · rw [hstart, Position.after_offset, List.take_left]
  · rw [hstop, Position.after_offset, List.append_assoc, ← List.append_assoc, List.take_left]
  · rw [hstop, Position.after_offset]
    simp

/-- **The layout of a text, by offsets.** What lies before the text is left out of account. -/
theorem Rules.Layout.accounts {r : Rules} {span : Span} {ts : List Token} (h : r.Layout span ts)
    {text rest : List Char} (hspan : span = locate (.after before) rest)
    (htext : text = before ++ rest) :
    (∀ t ∈ ts, t.LiesIn text ∧ before.length ≤ t.start.offset) ∧
      ts.Pairwise (fun t u => t.stop.offset < u.start.offset) ∧
      r.Accounts text before.length ts := by
  induction h generalizing before rest with
  | last hg ht =>
    obtain ⟨gap, tail, rfl, rfl, rfl⟩ := exists_of_locate_eq_append hspan.symm
    rw [chars_locate, chars_locate] at hg
    refine ⟨by simp, .nil, .last (by rw [htext, List.drop_left]) hg ?_⟩
    rw [chars_locate] at ht
    refine ht.imp_left fun hnil => ?_
    rw [← chars_locate _ tail, hnil]
    rfl
  | @token t _ _ _ ts hg ht h ih =>
    obtain ⟨gap, more, rfl, rfl, hmore⟩ := exists_of_locate_eq_append hspan.symm
    rw [Position.advanceOver_after] at hmore
    obtain ⟨piece, rest, rfl, rfl, rfl⟩ := exists_of_locate_eq_append hmore.symm
    rw [Position.advanceOver_after] at hg ih
    rw [chars_locate, chars_locate, chars_locate] at hg
    obtain ⟨hlies, hpair, hacc⟩ := ih rfl (by rw [htext]; simp only [List.append_assoc])
    rw [← List.append_assoc] at htext
    have ht' : t.LiesIn text := htext ▸ ht.liesIn
    obtain ⟨hstart, init, c, rfl, hstop⟩ := ht.places
    have hfirst : t.start.offset = (before ++ gap).length := by rw [hstart]; rfl
    have hlast : t.stop.offset + 1 = (before ++ gap ++ (init ++ [c])).length := by
      rw [hstop, ← List.append_assoc, List.length_append]
      rfl
    refine ⟨?_, List.pairwise_cons.mpr ⟨fun u hu => ?_, hpair⟩, .token ?_ (hlast ▸ hacc)⟩
    · intro u hu
      rcases List.mem_cons.mp hu with rfl | hu
      · exact ⟨ht', by simp [hfirst]⟩
      · refine ⟨(hlies u hu).1, Nat.le_trans ?_ (hlies u hu).2⟩
        simp [List.append_assoc]
    · have hle := (hlies u hu).2
      omega
    · rwa [hfirst, htext, List.take_left, List.drop_left, List.drop_left]

end Layout

/-! ## The number of tokens -/

theorem Rules.Layout.length_le {r : Rules} {span : Span} {ts : List Token} (h : r.Layout span ts) :
    ts.length ≤ span.length := by
  induction h with
  | last => exact Nat.zero_le _
  | token _ ht _ ih =>
    have hpos := List.length_pos_iff.mpr ht.ne_nil
    simp only [List.length_cons, List.length_append]
    omega

theorem Source.length_ahead_le (s : Source) : s.ahead.length ≤ s.size := by
  rw [← Span.length_chars]
  rcases s with r | ⟨_, _ | r⟩ | ⟨arrivals, _, _⟩
  · exact Nat.le_of_eq (congrArg List.length (chars_locate _ _))
  · exact Nat.zero_le _
  · exact Nat.le_of_eq (congrArg List.length (chars_locate _ _))
  · rw [Source.ahead, chars_locate]
    exact List.length_filterMap_le _ _

namespace Tokenizer

variable {t : Tokenizer}

/-- There are no more tokens to come than the bound that a tokenizer keeps for them. -/
theorem Prompt.length_rest_le (h : t.Prompt) : t.rest.length ≤ t.size := by
  obtain ⟨text, hs⟩ := h
  have htokens := (t.rules.layout_lexFrom [] text).length_le
  have hahead := t.cursor.source.length_ahead_le
  rw [← Rules.tokensFrom_eq_lexFrom hs, ← hs.text_eq] at htokens
  simp only [List.nil_append, List.length_append] at htokens
  simp only [rest, size, Cursor.size, List.length_append]
  omega

theorem Prompt.take_eq (h : t.Prompt) (n : Nat) : (t.take n).1 = t.rest.take n := by
  induction n generalizing t with
  | zero => rfl
  | succ n ih =>
    obtain ⟨hn, hrest, hp⟩ := h.next
    unfold Tokenizer.take
    cases hr : t.rest with
    | nil =>
      rw [hr] at hn
      rw [show t.next = (none, t.next.2) from Prod.ext hn rfl]
      rfl
    | cons token more =>
      rw [hr] at hn hrest
      rw [show t.next = (some token, t.next.2) from Prod.ext hn rfl]
      show token :: (t.next.2.take n).1 = _
      rw [ih hp, hrest]
      rfl

/-- **A tokenizer that never pauses gives all of its tokens at once.** -/
theorem Prompt.collect_eq (h : t.Prompt) : t.collect.1 = t.rest :=
  (h.take_eq _).trans (List.take_of_length_le (Nat.le_succ_of_le h.length_rest_le))

end Tokenizer

/-! ## Texts -/

theorem LexerConfig.tokenize_eq [PatternEngine] (c : LexerConfig) {r : Rules} (h : c.compile = .ok r)
    (text : String) : c.tokenize text = .ok (r.lex text) := by
  rw [tokenize, tokenizer, h]
  show Except.ok (Tokenizer.ofRules r (.ofString text)).collect.1 = _
  have hp : (Source.ofString text).Prompt := trivial
  rw [(Tokenizer.prompt_ofRules r hp).collect_eq, Tokenizer.rest_ofRules r hp]
  rfl

/-- **Nothing of a text is lost, doubled or misplaced.** Each token lies in the text and starts after
the stop of all tokens before it, and what no token covers is blank, up to a comment or a string that
is not closed at the end of the text. -/
theorem LexerConfig.tokenize_lossless [PatternEngine] (c : LexerConfig) {r : Rules}
    (h : c.compile = .ok r) (text : String) :
    ∃ tokens, c.tokenize text = .ok tokens ∧ (∀ t ∈ tokens, t.LiesIn text.toList) ∧
      tokens.Pairwise (fun t u => t.stop.offset < u.start.offset ∧ compare t.stop u.start = .lt) ∧
      r.Accounts text.toList 0 tokens := by
  have hlayout := r.layout_lexFrom [] (locate .start text.toList)
  have hspan : [] ++ locate .start text.toList = locate (.after []) text.toList := rfl
  obtain ⟨hlies, hpair, hacc⟩ := hlayout.accounts hspan (List.nil_append _).symm
  refine ⟨_, c.tokenize_eq h text, fun t ht => (hlies t ht).1, ?_, hacc⟩
  exact hpair.imp_of_mem fun ht hu hlt => ⟨hlt, (hlies _ ht).1.compare_eq_lt (hlies _ hu).1 hlt⟩

theorem lossless_of_text_with_comment :
    letI := Expr.engine
    let c : LexerConfig := (LexerConfig.addComment {} "/*" "*/" true).addString "S" "'" none
    let text := "a/*b*/\nc 'd"
    let tokens := [Token.ofType "a" "terminal" ⟨1, 1, 0⟩ ⟨1, 1, 0⟩,
      Token.ofType "c" "terminal" ⟨2, 1, 7⟩ ⟨2, 1, 7⟩]
    ∃ r, c.compile = .ok r ∧ c.tokenize text = .ok tokens ∧
      (∀ t ∈ tokens, t.LiesIn text.toList) ∧
      tokens.Pairwise (fun t u => t.stop.offset < u.start.offset ∧ compare t.stop u.start = .lt) ∧
      r.Accounts text.toList 0 tokens := by
  intro c text tokens
  let : PatternEngine := Expr.engine
  obtain ⟨r, hr⟩ : ∃ r, c.compile = .ok r := ⟨_, by cbv⟩
  obtain ⟨ts, hts, hlossless⟩ := c.tokenize_lossless hr text
  have htokens : c.tokenize text = .ok tokens := by cbv
  obtain rfl : ts = tokens := Except.ok.inj (hts.symm.trans htokens)
  exact ⟨r, hr, htokens, hlossless⟩

end ParserKit
