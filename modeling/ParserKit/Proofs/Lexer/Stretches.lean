import ParserKit.Proofs.Lexer.Checked
import ParserKit.Proofs.Lexer.Lossless

/-!
# The stretches of a text

Where a span or a quoted string begins and ends depends on comments, strings and whitespace alone.

* `Boundaries`, `Stretch`: what draws the boundaries, and what lies between them.
* `Boundaries.stretchesFrom`, `Boundaries.stretches`: the stretches of a text.
* **`Rules.flatMap_stretchesFrom`**: the tokens of a text are those of its stretches.
* `Boundaries.chars_infix`: a stretch is a part of the text.
* `Token.Occupies`, `Tiles.occupied_iff`: the tokens of a span occupy the places of its characters.
* **`LexerConfig.tokenize_sameBoundaries`**: how spans are classified moves no boundary.
-/

namespace ParserKit

/-! ## Stretches -/

/-- What draws the boundaries in a text: comments, strings and whitespace. -/
structure Boundaries where
  comments : List CommentRule
  strings : List StringRule
  whitespace : List Char

/-- What lies between two boundaries: a span, which is still to be classified, or a quoted string with
its delimiters. Neither is empty. -/
inductive Stretch where
  | span (first : Located) (more : Span)
  | quoted (type : StringRule) (first : Located) (more : Span)

namespace Stretch

def chars : Stretch → Span
  | span first more => first :: more
  | quoted _ first more => first :: more

def isQuoted : Stretch → Bool
  | span _ _ => false
  | quoted _ _ _ => true

/-- What has been read since the last boundary is a stretch, unless it is nothing. -/
def ofSpan : Span → List Stretch
  | [] => []
  | first :: more => [span first more]

theorem chars_of_mem_ofSpan {s : Span} {x : Stretch} (h : x ∈ ofSpan s) : x.chars = s := by
  cases s with
  | nil => cases h
  | cons first more => rw [List.mem_singleton.mp h, chars]

end Stretch

namespace Boundaries

variable (b : Boundaries)

/-- **The stretches of a text**, where `span` is what has been read since the last boundary. -/
def stretchesFrom (span : Span) : Span → List Stretch
  | [] => Stretch.ofSpan span
  | c :: text =>
    match b.comments.find? (·.start.begins (c :: text)) with
    | some t =>
      Stretch.ofSpan span ++
        match h : t.close? 1 (text.drop t.start.more.length) with
        | some rest =>
          have := (CommentRule.suffix_of_close? h).length_le
          stretchesFrom [] rest
        | none => []
    | none =>
      match b.strings.find? (·.delimiter.begins (c :: text)) with
      | some t =>
        Stretch.ofSpan span ++
          match h : t.close? (text.drop t.delimiter.more.length) with
          | some (body, rest) =>
            have := congrArg List.length (StringRule.append_of_close? h)
            .quoted t c (text.take t.delimiter.more.length ++ body) :: stretchesFrom [] rest
          | none => []
      | none =>
        if c.char ∈ b.whitespace then Stretch.ofSpan span ++ stretchesFrom [] text
        else stretchesFrom (span ++ [c]) text
termination_by text => text.length
decreasing_by
  all_goals
    simp only [List.length_append, List.length_drop, List.length_cons] at *
    omega

/-- The stretches of a text. -/
def stretches (text : String) : List Stretch := b.stretchesFrom [] (locate .start text.toList)

/-- **A stretch is a part of the text.** -/
theorem chars_infix (span text : Span) :
    ∀ x ∈ b.stretchesFrom span text, x.chars <:+: span ++ text := by
  have hspan {span text : Span} {x : Stretch} (hx : x ∈ Stretch.ofSpan span) :
      x.chars <:+: span ++ text := by
    rw [Stretch.chars_of_mem_ofSpan hx]
    exact (List.prefix_append span text).isInfix
  have hrest {span text rest : Span} {x : Stretch} (hx : x.chars <:+: [] ++ rest)
      (hr : rest <:+ text) : x.chars <:+: span ++ text :=
    hx.trans (hr.trans (List.suffix_append span text)).isInfix
  fun_induction stretchesFrom b span text with
  | case1 span => exact fun x => hspan
  | case2 span c text t _ ih =>
    intro x hx
    rcases List.mem_append.mp hx with hx | hx
    · exact hspan hx
    · split at hx
      · next rest hc =>
        refine hrest (ih rest hc x hx) ((CommentRule.suffix_of_close? hc).trans ?_)
        exact (List.drop_suffix _ _).trans (List.suffix_cons _ _)
      · cases hx
  | case3 span c text _ t _ ih =>
    intro x hx
    rcases List.mem_append.mp hx with hx | hx
    · exact hspan hx
    · split at hx
      · next body rest hc =>
        have happ := StringRule.append_of_close? hc
        rcases List.mem_cons.mp hx with rfl | hx
        · refine List.IsInfix.trans (List.IsPrefix.isInfix ?_) (List.suffix_append span _).isInfix
          refine ⟨rest, ?_⟩
          rw [Stretch.chars, List.cons_append, List.append_assoc, happ, List.take_append_drop]
        · refine hrest (ih body rest hc x hx) (.trans ⟨body, happ⟩ ?_)
          exact (List.drop_suffix _ _).trans (List.suffix_cons _ _)
      · cases hx
  | case4 span c text _ _ _ ih =>
    intro x hx
    rcases List.mem_append.mp hx with hx | hx
    · exact hspan hx
    · exact hrest (ih x hx) (List.suffix_cons c text)
  | case5 span c text _ _ _ ih =>
    intro x hx
    have hx := ih x hx
    rwa [List.append_assoc] at hx

end Boundaries

namespace Rules

variable (r : Rules)

def boundaries : Boundaries := ⟨r.comments, r.strings, r.whitespace⟩

def tokensOf : Stretch → List Token
  | .span first more => r.classify (first :: more)
  | .quoted t first more => [Span.token t.name first more]

theorem flatMap_ofSpan (s : Span) : (Stretch.ofSpan s).flatMap r.tokensOf = r.classify s := by
  cases s with
  | nil => exact r.classify_nil.symm
  | cons first more => exact List.append_nil _

/-- **The tokens of a text are those of its stretches.** -/
theorem flatMap_stretchesFrom (span text : Span) :
    (r.boundaries.stretchesFrom span text).flatMap r.tokensOf = r.lexFrom span text := by
  fun_induction Boundaries.stretchesFrom r.boundaries span text with
  | case1 span => rw [flatMap_ofSpan, lexFrom]
  | case2 span c text t hc ih =>
    rw [List.flatMap_append, flatMap_ofSpan, lexFrom_comment hc, outlook]
    refine (List.append_right_inj _).mpr ?_
    split
    · next rest hr =>
      have hr' : t.close? 1 ((c :: text).drop t.start.length) = some rest := hr
      rw [hr']
      exact ih rest hr
    · next hr =>
      have hr' : t.close? 1 ((c :: text).drop t.start.length) = none := hr
      rw [hr']
      rfl
  | case3 span c text hc t hs ih =>
    rw [List.flatMap_append, flatMap_ofSpan, lexFrom_string hc hs, outlook]
    refine (List.append_right_inj _).mpr ?_
    split
    · next body rest hr =>
      have hr' : t.close? ((c :: text).drop t.delimiter.length) = some (body, rest) := hr
      rw [hr', List.flatMap_cons, ih body rest hr]
      rfl
    · next hr =>
      have hr' : t.close? ((c :: text).drop t.delimiter.length) = none := hr
      rw [hr']
      rfl
  | case4 span c text hc hs hw ih =>
    rw [List.flatMap_append, flatMap_ofSpan, ih, lexFrom_whitespace hc hs hw]
  | case5 span c text hc hs hw ih => rw [ih, lexFrom_char hc hs hw]

theorem lex_eq_flatMap (text : String) :
    r.lex text = (r.boundaries.stretches text).flatMap r.tokensOf :=
  (r.flatMap_stretchesFrom [] _).symm

theorem tiles_tokensOf (x : Stretch) : Tiles x.chars (r.tokensOf x) := by
  cases x with
  | span first more => exact r.tiles_classify _
  | quoted t first more => exact .single (Span.covers_token t.name first more)

end Rules

/-! ## Occupied places -/

/-- A token occupies the offsets from its first to its last character. -/
def Token.Occupies (t : Token) (offset : Nat) : Prop :=
  t.start.offset ≤ offset ∧ offset ≤ t.stop.offset

theorem exists_offset_locate_iff {p : Position} {text : List Char} {k : Nat} :
    (∃ x ∈ locate p text, x.position.offset = k) ↔
      p.offset ≤ k ∧ k < p.offset + text.length := by
  induction text generalizing p with
  | nil => simp [locate]
  | cons c text ih =>
    have hnext : (p.advance c).offset = p.offset + 1 := by
      unfold Position.advance
      split <;> rfl
    rw [locate, List.exists_mem_cons_iff, ih, hnext, List.length_cons]
    dsimp only
    omega

theorem exists_of_infix_locate {s : Span} {text : List Char} (h : s <:+: locate .start text) :
    ∃ before piece, s = locate (.after before) piece := by
  obtain ⟨left, right, htext⟩ := h
  rw [List.append_assoc] at htext
  obtain ⟨before, more, -, -, hmore⟩ := exists_of_locate_eq_append htext.symm
  obtain ⟨piece, -, -, hpiece, -⟩ := exists_of_locate_eq_append hmore.symm
  have hplace : Position.start.advanceOver before = .after before :=
    Position.advanceOver_after [] before
  exact ⟨before, piece, hplace ▸ hpiece⟩

theorem Token.Covers.occupies_iff {t : Token} {piece : Span} {text : List Char} {k : Nat}
    (h : t.Covers piece) (hp : piece <:+: locate .start text) :
    t.Occupies k ↔ ∃ x ∈ piece, x.position.offset = k := by
  obtain ⟨before, piece, rfl⟩ := exists_of_infix_locate hp
  obtain ⟨hstart, init, c, rfl, hstop⟩ := h.places
  rw [exists_offset_locate_iff, Occupies, hstart, hstop]
  simp only [Position.after_offset, List.length_append, List.length_singleton]
  omega

/-- **The tokens of a span occupy the places of its characters.** -/
theorem Tiles.occupied_iff {span : Span} {ts : List Token} {text : List Char} {k : Nat}
    (h : Tiles span ts) (hs : span <:+: locate .start text) :
    (∃ t ∈ ts, t.Occupies k) ↔ ∃ x ∈ span, x.position.offset = k := by
  induction h with
  | nil => simp
  | @cons t piece span ts ht h ih =>
    have hpiece := (List.prefix_append piece span).isInfix.trans hs
    have hspan := (List.suffix_append piece span).isInfix.trans hs
    simp only [List.exists_mem_cons_iff, ht.occupies_iff hpiece, ih hspan, List.mem_append,
      or_and_right, exists_or]

theorem Rules.occupied_lex_iff (r : Rules) (text : String) (k : Nat) :
    (∃ t ∈ r.lex text, t.Occupies k) ↔
      ∃ x ∈ r.boundaries.stretches text, ∃ c ∈ x.chars, c.position.offset = k := by
  have hx : ∀ x ∈ r.boundaries.stretches text,
      ((∃ t ∈ r.tokensOf x, t.Occupies k) ↔ ∃ c ∈ x.chars, c.position.offset = k) := fun x hx =>
    (r.tiles_tokensOf x).occupied_iff (r.boundaries.chars_infix [] _ x hx)
  rw [lex_eq_flatMap]
  constructor
  · rintro ⟨t, ht, hk⟩
    obtain ⟨x, hmem, ht⟩ := List.mem_flatMap.mp ht
    exact ⟨x, hmem, (hx x hmem).mp ⟨t, ht, hk⟩⟩
  · rintro ⟨x, hmem, hc⟩
    obtain ⟨t, ht, hk⟩ := (hx x hmem).mpr hc
    exact ⟨t, List.mem_flatMap.mpr ⟨x, hmem, ht⟩, hk⟩

/-! ## Configurations with the same boundaries -/

def Rules.quotedTokens (r : Rules) (text : String) : List Token :=
  ((r.boundaries.stretches text).filter Stretch.isQuoted).flatMap r.tokensOf

/-- A string has the same token by all rules. -/
theorem Rules.quotedTokens_eq {r r' : Rules} (h : r.boundaries = r'.boundaries) (text : String) :
    r.quotedTokens text = r'.quotedTokens text := by
  rw [quotedTokens, quotedTokens, ← h]
  refine List.flatMap_congr fun x hx => ?_
  cases x with
  | span first more => cases (List.mem_filter.mp hx).2
  | quoted t first more => rfl

namespace LexerConfig

theorem Yields.boundaries_eq [PatternEngine] {c c' : LexerConfig} {r r' : Rules} (h : c.Yields r)
    (h' : c'.Yields r') (hcomments : c.comments = c'.comments) (hstrings : c.strings = c'.strings)
    (hwhitespace : c.whitespace = c'.whitespace) : r.boundaries = r'.boundaries := by
  have hc := mapM_eq_ok_iff.mpr h.comments
  have hs := mapM_eq_ok_iff.mpr h.strings
  rw [hcomments, mapM_eq_ok_iff.mpr h'.comments] at hc
  rw [hstrings, mapM_eq_ok_iff.mpr h'.strings] at hs
  rw [Rules.boundaries, Rules.boundaries, ← Except.ok.inj hc, ← Except.ok.inj hs, ← h.whitespace,
    ← h'.whitespace, hwhitespace]

/-- **How spans are classified moves no boundary.** Where comments, strings and whitespace are the
same, a text has the same stretches. Its tokens occupy the same places, and those of its quoted
strings are the same. -/
theorem tokenize_sameBoundaries [PatternEngine] (c c' : LexerConfig) {r r' : Rules}
    (hc : c.compile = .ok r) (hc' : c'.compile = .ok r') (hcomments : c.comments = c'.comments)
    (hstrings : c.strings = c'.strings) (hwhitespace : c.whitespace = c'.whitespace)
    (text : String) :
    ∃ ts us, c.tokenize text = .ok ts ∧ c'.tokenize text = .ok us ∧
      (∀ k, (∃ t ∈ ts, t.Occupies k) ↔ ∃ u ∈ us, u.Occupies k) ∧
      ts = (r.boundaries.stretches text).flatMap r.tokensOf ∧
      us = (r.boundaries.stretches text).flatMap r'.tokensOf ∧
      r.quotedTokens text = r'.quotedTokens text := by
  have h := compile_eq_ok_iff.mp hc
  have hsame := h.boundaries_eq (compile_eq_ok_iff.mp hc') hcomments hstrings hwhitespace
  refine ⟨_, _, c.tokenize_eq hc text, c'.tokenize_eq hc' text, fun k => ?_, r.lex_eq_flatMap text,
    ?_, Rules.quotedTokens_eq hsame text⟩
  · rw [r.occupied_lex_iff, r'.occupied_lex_iff, hsame]
  · rw [hsame]
    exact r'.lex_eq_flatMap text

theorem sameBoundaries_with_symbols :
    letI := Expr.engine
    let c : LexerConfig := (LexerConfig.addComment {} "/*" "*/" true).addString "S" "'" none
    let c' : LexerConfig := ((c.addSymbol "-" "MINUS").addSymbol "<--->" "ARROW").addKeyword "b"
    let text := "a-b/*'*/<--->'c d'-'e"
    let ts := [Token.ofType "a-b" "terminal" ⟨1, 1, 0⟩ ⟨1, 3, 2⟩,
      .ofType "<--->" "terminal" ⟨1, 9, 8⟩ ⟨1, 13, 12⟩, .ofType "'c d'" "S" ⟨1, 14, 13⟩ ⟨1, 18, 17⟩,
      .ofType "-" "terminal" ⟨1, 19, 18⟩ ⟨1, 19, 18⟩]
    let us := [Token.ofType "a" "terminal" ⟨1, 1, 0⟩ ⟨1, 1, 0⟩,
      .ofType "-" "MINUS" ⟨1, 2, 1⟩ ⟨1, 2, 1⟩, .ofType "b" "B" ⟨1, 3, 2⟩ ⟨1, 3, 2⟩,
      .ofType "<--->" "ARROW" ⟨1, 9, 8⟩ ⟨1, 13, 12⟩, .ofType "'c d'" "S" ⟨1, 14, 13⟩ ⟨1, 18, 17⟩,
      .ofType "-" "MINUS" ⟨1, 19, 18⟩ ⟨1, 19, 18⟩]
    ∃ r r', c.compile = .ok r ∧ c'.compile = .ok r' ∧ c.comments = c'.comments ∧
      c.strings = c'.strings ∧ c.whitespace = c'.whitespace ∧
      c.tokenize text = .ok ts ∧ c'.tokenize text = .ok us ∧
      (∀ k, (∃ t ∈ ts, t.Occupies k) ↔ ∃ u ∈ us, u.Occupies k) ∧
      ts = (r.boundaries.stretches text).flatMap r.tokensOf ∧
      us = (r.boundaries.stretches text).flatMap r'.tokensOf ∧
      r.quotedTokens text = r'.quotedTokens text := by
  intro c c' text ts us
  let : PatternEngine := Expr.engine
  obtain ⟨r, hr⟩ : ∃ r, c.compile = .ok r := ⟨_, by cbv⟩
  obtain ⟨r', hr'⟩ : ∃ r', c'.compile = .ok r' := ⟨_, by cbv⟩
  have hts : c.tokenize text = .ok ts := by cbv
  have hus : c'.tokenize text = .ok us := by cbv
  obtain ⟨ts', us', hts', hus', hsame⟩ := tokenize_sameBoundaries c c' hr hr' rfl rfl rfl text
  obtain rfl : ts' = ts := Except.ok.inj (hts'.symm.trans hts)
  obtain rfl : us' = us := Except.ok.inj (hus'.symm.trans hus)
  exact ⟨r, r', hr, hr', rfl, rfl, rfl, hts, hus, hsame⟩

end LexerConfig

end ParserKit
