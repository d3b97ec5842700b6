import ParserKit.Proofs.Lexer.Layout
import ParserKit.Proofs.Lexer.Relocation
import ParserKit.Proofs.Lexer.Symbols

/-!
# Spans in pieces

A span that no terminal pattern matches is split at a symbol, and so are the parts on both sides.
Which patterns match, may be said in any sense that the engine decides.

* `LexerConfig.Yields.split_of_matches`, `LexerConfig.Yields.split_of_site`: one token, or two
  parts with the token of a symbol between them.
* **`LexerConfig.classify_at_symbol`**: where a span is split, and what its tokens are.
* `Factor`, `LexerConfig.Admits`: a piece of a span, and what it has to be;
  `LexerConfig.Factoring`: pieces that make up a span.
* **`LexerConfig.classify_factors`**: the tokens of a span are those of such pieces.
-/

namespace ParserKit

theorem Token.primaryType_addType (t : Token) (type : String) :
    (t.addType type).primaryType = t.primaryType := by
  unfold addType
  split <;> rfl

theorem Rules.primaryType_withTerminals (r : Rules) (t : Token) (names : List String) :
    (r.withTerminals t names).primaryType = t.primaryType := by
  unfold withTerminals
  split
  · induction names generalizing t with
    | nil => rfl
    | cons name names ih => rw [List.foldl_cons, ih, t.primaryType_addType]
  · rfl

theorem Rules.covers_withTerminals (r : Rules) {t : Token} {piece : Span} (h : t.Covers piece)
    (names : List String) : (r.withTerminals t names).Covers piece := by
  unfold withTerminals
  split
  · exact h.foldl_addType names
  · exact h

namespace LexerConfig

variable {c : LexerConfig} {r : Rules} {span : Span} {text : List Char} {k : Nat} {s : Symbol}
  {M : TerminalPattern → List Char → Prop}

theorem SymbolAt.exists_token {rule : SymbolRule} (hs : c.SymbolAt span.chars k rule.symbol) :
    ∃ t : Token, Span.tokens rule.name ((span.drop k).take rule.sequence.length) = [t] ∧
      t.Covers ((span.drop k).take rule.sequence.length) ∧ t.content = rule.symbol.sequence ∧
      t.types = [rule.name] := by
  have hchars : Span.chars ((span.drop k).take rule.sequence.length) = rule.sequence.chars := by
    have hbegins := List.prefix_iff_eq_take.mp hs.begins
    rw [rule.toList_sequence] at hbegins
    rw [Span.chars_take, Span.chars, List.map_drop]
    exact hbegins.symm
  cases hpiece : (span.drop k).take rule.sequence.length with
  | nil =>
    rw [hpiece] at hchars
    cases hchars
  | cons first more =>
    rw [hpiece] at hchars
    exact ⟨_, rfl, Span.covers_token _ _ _, congrArg String.ofList hchars, rfl⟩

/-! ## One token, or two parts -/

namespace Yields

variable [PatternEngine] (h : c.Yields r)
include h

theorem terminalNames_eq_nil_iff (hM : c.Decides M) :
    r.terminalNames text = [] ↔ ∀ p ∈ c.terminals, ¬ M p text := by
  rw [List.eq_nil_iff_forall_not_mem]
  constructor
  · intro hno p hp hm
    exact hno p.name ((h.mem_terminalNames_iff hM).mpr ⟨p, hp, hm, rfl⟩)
  · intro hno name hname
    obtain ⟨p, hp, hm, -⟩ := (h.mem_terminalNames_iff hM).mp hname
    exact hno p hp hm

/-- **A span that some terminal pattern matches is one token**, tagged by such a pattern. -/
theorem split_of_matches (hM : c.Decides M) (hspan : span ≠ [])
    (hm : ∃ p ∈ c.terminals, M p span.chars) :
    ∃ t, r.split span = [t] ∧ t.Covers span ∧
      ∃ p ∈ c.terminals, M p span.chars ∧ t.primaryType = p.name := by
  obtain ⟨first, more, rfl⟩ := List.exists_cons_of_ne_nil hspan
  cases hnames : r.terminalNames (Span.chars (first :: more)) with
  | nil =>
    obtain ⟨p, hp, hmatch⟩ := hm
    exact absurd hmatch ((h.terminalNames_eq_nil_iff hM).mp hnames p hp)
  | cons name names =>
    obtain ⟨p, hp, hmatch, rfl⟩ := (h.mem_terminalNames_iff hM).mp (hnames ▸ List.mem_cons_self)
    refine ⟨r.withTerminals (Span.token p.name first more) names, ?_, ?_, p, hp, hmatch, ?_⟩
    · rw [Rules.split_cons, hnames]
    · exact r.covers_withTerminals (Span.covers_token _ _ _) names
    · exact r.primaryType_withTerminals _ names

theorem split_take_of_led (hM : c.Decides M) (hspan : span ≠ [])
    (hled : c.Led M span.chars k s) :
    ∃ t, r.split (span.take k) = [t] ∧ t.Covers (span.take k) := by
  have hne : span.take k ≠ [] := by
    have hpos := hled.pos
    rw [Ne, List.take_eq_nil_iff, not_or]
    exact ⟨by omega, hspan⟩
  have hleft := hled.matchesLeft
  rw [← Span.chars_take] at hleft
  obtain ⟨t, hsplit, hcovers, -⟩ := h.split_of_matches hM hne hleft
  exact ⟨t, hsplit, hcovers⟩

/-- **Any other span with a symbol in it is split there.** -/
theorem split_of_site (hM : c.Decides M)
    (hm : ∀ p ∈ c.terminals, ¬ M p span.chars) {p : SymbolSite}
    (hp : r.site span.chars = some p) :
    r.split span = r.split (span.take p.offset) ++
      Span.tokens p.symbol.name ((span.drop p.offset).take p.symbol.sequence.length) ++
      r.split ((span.drop p.offset).drop p.symbol.sequence.length) := by
  cases span with
  | nil => exact absurd (r.offset_lt_of_site hp) (Nat.not_lt_zero _)
  | cons first more => rw [Rules.split_cons, (h.terminalNames_eq_nil_iff hM).mpr hm, hp]

theorem exists_symbolAt_iff :
    (∃ k s, c.SymbolAt text k s) ↔ ∃ s ∈ c.symbols, s.sequence.toList <:+: text := by
  constructor
  · rintro ⟨k, s, hs⟩
    exact ⟨s, hs.mem, hs.begins.isInfix.trans (List.drop_suffix k text).isInfix⟩
  · rintro ⟨s, hs, hinfix⟩
    obtain ⟨rest, hprefix, hsuffix⟩ := List.infix_iff_prefix_suffix.mp hinfix
    rw [List.suffix_iff_eq_drop.mp hsuffix] at hprefix
    cases hrule : r.symbolAt (text.drop (text.length - rest.length)) with
    | none => exact absurd hprefix (h.symbolAt_eq_none_iff.mp hrule s hs)
    | some rule => exact ⟨_, rule.symbol, h.symbolAt_iff.mp hrule⟩

end Yields

theorem Yields.classify_of_symbol [PatternEngine] (h : c.Yields r) (hM : c.Decides M)
    (hm : ∀ p ∈ c.terminals, ¬ M p span.chars)
    (hs : ∃ s ∈ c.symbols, s.sequence.toList <:+: span.chars) :
    ∃ k s, c.SplitPlace M span.chars k s ∧
      (∃ t : Token, t.Covers ((span.drop k).take s.sequence.length) ∧ t.content = s.sequence ∧
        t.types = [s.name] ∧
        r.classify span = r.classify (span.take k) ++
          r.applyKeyword t :: r.classify (span.drop (k + s.sequence.length))) ∧
      (c.Led M span.chars k s →
        ∃ first, r.classify (span.take k) = [first] ∧ first.Covers (span.take k)) ∧
      (k = 0 → r.classify (span.take k) = []) := by
  cases hp : r.site span.chars with
  | none =>
    obtain ⟨k, s, hs⟩ := h.exists_symbolAt_iff.mpr hs
    exact absurd hs (h.site_eq_none_iff.mp hp k s)
  | some p =>
    have hplace := h.splitPlace_of_site hM hp
    obtain ⟨t, htokens, hcovers, hcontent, htypes⟩ := hplace.symbolAt.exists_token
    refine ⟨p.offset, p.symbol.symbol, hplace, ⟨t, ?_, hcontent, htypes, ?_⟩, ?_, ?_⟩
    · rwa [p.symbol.length_sequence]
    · rw [p.symbol.length_sequence, Rules.classify, h.split_of_site hM hm hp, htokens,
        List.drop_drop, List.map_append, List.map_append, List.map_singleton, List.append_assoc]
      rfl
    · intro hled
      have hspan : span ≠ [] := by
        rintro rfl
        exact absurd (r.offset_lt_of_site hp) (Nat.not_lt_zero _)
      obtain ⟨first, hsplit, hfirst⟩ := h.split_take_of_led hM hspan hled
      refine ⟨r.applyKeyword first, ?_, r.covers_applyKeyword hfirst⟩
      rw [Rules.classify, hsplit, List.map_singleton]
    · intro hzero
      rw [hzero, List.take_zero, Rules.classify_nil]

/-- **A span that no terminal pattern matches is split at a symbol**, if one occurs in it: at the
place that takes precedence over all others. Its tokens are those of the left part, that of the
symbol and those of the right part. A left part to which precedence is due is one token, and at the
start of the span there is no left part. The terminal patterns have to be valid on their own. -/
theorem classify_at_symbol [E : PatternEngine] {L : PatternLanguage} (hL : E.Implements L)
    (c : LexerConfig) {r : Rules} (hc : c.compile = .ok r)
    (hvalid : ∀ p ∈ c.terminals, L.Valid p.pattern.toList) {span : Span}
    (hm : ∀ p ∈ c.terminals, ¬ p.MatchesWhole L span.chars)
    (hs : ∃ s ∈ c.symbols, s.sequence.toList <:+: span.chars) :
    ∃ k s, c.SplitPlace (TerminalPattern.MatchesWhole L) span.chars k s ∧
      (∃ t : Token, t.Covers ((span.drop k).take s.sequence.length) ∧ t.content = s.sequence ∧
        t.types = [s.name] ∧
        r.classify span = r.classify (span.take k) ++
          r.applyKeyword t :: r.classify (span.drop (k + s.sequence.length))) ∧
      (c.Led (TerminalPattern.MatchesWhole L) span.chars k s →
        ∃ first, r.classify (span.take k) = [first] ∧ first.Covers (span.take k)) ∧
      (k = 0 → r.classify (span.take k) = []) := by
  have h := compile_eq_ok_iff.mp hc
  exact h.classify_of_symbol (decides_matchesWhole hL h hvalid) hm hs

theorem split_of_letter_and_dashes :
    letI := Expr.engine
    let L := Expr.language
    let c : LexerConfig :=
      ((LexerConfig.addSymbol {} "-" "MINUS").addSymbol "--" "DASH").addTerminal "[a-z]" "LETTER"
    let span := locate .start "a--".toList
    Expr.engine.Implements L ∧ ∃ r, c.compile = .ok r ∧
      (∀ p ∈ c.terminals, L.Valid p.pattern.toList) ∧
      (∀ p ∈ c.terminals, ¬ p.MatchesWhole L (Span.chars span)) ∧
      (∃ s ∈ c.symbols, s.sequence.toList <:+: Span.chars span) ∧
      ∃ k s, c.SplitPlace (TerminalPattern.MatchesWhole L) (Span.chars span) k s ∧
        (∃ t : Token, t.Covers ((span.drop k).take s.sequence.length) ∧ t.content = s.sequence ∧
          t.types = [s.name] ∧
          r.classify span = r.classify (span.take k) ++
            r.applyKeyword t :: r.classify (span.drop (k + s.sequence.length))) ∧
        (c.Led (TerminalPattern.MatchesWhole L) (Span.chars span) k s →
          ∃ first, r.classify (span.take k) = [first] ∧ first.Covers (span.take k)) ∧
        (k = 0 → r.classify (span.take k) = []) := by
  intro L c span
  let : PatternEngine := Expr.engine
  obtain ⟨r, hr⟩ : ∃ r, c.compile = .ok r := ⟨_, by cbv⟩
  have hparse : Piece.parse "[a-z]".toList = .ok ⟨.set [('a'.toNat, 'z'.toNat)], 1⟩ := by cbv
  have hvalid : ∀ p ∈ c.terminals, L.Valid p.pattern.toList := by
    intro p hp
    obtain rfl : p = ⟨"[a-z]", "LETTER"⟩ := List.mem_singleton.mp hp
    exact ⟨_, hparse⟩
  have hm : ∀ p ∈ c.terminals, ¬ p.MatchesWhole L (Span.chars span) := by
    intro p hp hm
    obtain rfl : p = ⟨"[a-z]", "LETTER"⟩ := List.mem_singleton.mp hp
    obtain ⟨x, hx, -⟩ := (Expr.language_matches_iff hparse).mp hm
    have hchars : ['a', '-', '-'] = [x] := hx
    cases hchars
  have hs : ∃ s ∈ c.symbols, s.sequence.toList <:+: Span.chars span :=
    ⟨⟨"--", "DASH"⟩, by decide, ['a'], [], rfl⟩
  exact ⟨Expr.engine_implements, r, hr, hvalid, hm, hs,
    classify_at_symbol Expr.engine_implements c hr hvalid hm hs⟩

/-! ## A pattern that is not valid on its own -/

/-- A configuration with a pattern that closes a group too many. In its frame this is an expression
that matches the beginning of a text. -/
def withUnopenedGroup : LexerConfig :=
  (LexerConfig.addSymbol {} "x" "X").addTerminal "a)|(?:b" "T"

theorem not_matchesWhole_of_unopenedGroup :
    ∀ p ∈ withUnopenedGroup.terminals, ¬ p.MatchesWhole Expr.language ['a', 'x'] ∧
      ¬ Expr.language.MatchesWhole (anchored p.pattern.toList) ['a', 'x'] := by
  intro p hp
  obtain rfl : p = ⟨"a)|(?:b", "T"⟩ := List.mem_singleton.mp hp
  constructor
  · rintro ⟨q, hq, -⟩
    have herror : Piece.parse "a)|(?:b".toList = .error .unopenedGroup := by cbv
    cases herror.symm.trans hq
  · obtain ⟨q, hq, hexpr⟩ : ∃ q, Piece.parse (anchored "a)|(?:b".toList) = .ok q ∧
        q.form.expr = .either (.concat (.look .textStart) (.set (CharSet.single 'a')))
          (.concat (.set (CharSet.single 'b')) (.look .textEnd)) := ⟨_, by cbv, by cbv⟩
    rw [PatternLanguage.MatchesWhole, Expr.language_matches_iff hq, hexpr]
    rintro (hm | hm)
    · obtain ⟨-, c, hc, -⟩ := Expr.look_andThen_iff.mp hm
      cases hc
    · obtain ⟨⟨c, hc, -⟩, -⟩ := Expr.andThen_look_iff.mp hm
      cases hc

/-- The engine finds the pattern in a text that the pattern does not match, which is one token for
that reason. -/
theorem classify_of_unopenedGroup :
    letI := Expr.engine
    ∃ r, withUnopenedGroup.compile = .ok r ∧
      ∃ t : Token, r.classify (locate .start ['a', 'x']) = [t] ∧
        t.Covers (locate .start ['a', 'x']) := by
  let : PatternEngine := Expr.engine
  obtain ⟨r, hr⟩ : ∃ r, withUnopenedGroup.compile = .ok r := ⟨_, by cbv⟩
  have h := compile_eq_ok_iff.mp hr
  have hfound : TerminalPattern.foundIn ⟨"a)|(?:b", "T"⟩ ['a', 'x'] = true := by cbv
  have hspan : locate .start ['a', 'x'] ≠ [] := List.cons_ne_nil _ _
  obtain ⟨t, hsplit, hcovers, -⟩ := h.split_of_matches withUnopenedGroup.decides_foundIn hspan
    ⟨_, List.mem_singleton_self _, hfound⟩
  refine ⟨r, hr, r.applyKeyword t, ?_, r.covers_applyKeyword hcovers⟩
  rw [Rules.classify, hsplit, List.map_singleton]

theorem unsplit_of_unopenedGroup :
    letI := Expr.engine
    let c := withUnopenedGroup
    let span := locate .start ['a', 'x']
    ∃ r, c.compile = .ok r ∧
      (∀ p ∈ c.terminals, ¬ p.MatchesWhole Expr.language (Span.chars span) ∧
        ¬ Expr.language.MatchesWhole (anchored p.pattern.toList) (Span.chars span)) ∧
      (∃ s ∈ c.symbols, s.sequence.toList <:+: Span.chars span) ∧
      ∃ t : Token, r.classify span = [t] ∧ t.content = "ax" := by
  intro c span
  obtain ⟨r, hr, t, hclassify, hcovers⟩ := classify_of_unopenedGroup
  exact ⟨r, hr, not_matchesWhole_of_unopenedGroup, ⟨⟨"x", "X"⟩, by decide, ['a'], [], rfl⟩, t,
    hclassify, hcovers.content_eq⟩

/-! ## Pieces -/

/-- What a piece of a span can be. -/
inductive PieceKind where
  | terminal
  | symbol
  | fallback
deriving DecidableEq

/-- A piece of a span, with its token before keywords are considered. -/
structure Factor where
  kind : PieceKind
  piece : Span
  token : Token

/-- **What a piece has to be.** Some terminal pattern matches it, in the sense of `M`; or it is a
symbol, and of several with the same sequence the one that is declared first; or no terminal pattern
matches it, and no symbol occurs in it. -/
inductive Admits (c : LexerConfig) (M : TerminalPattern → List Char → Prop) : Factor → Prop
  | terminal {piece t p} (hp : p ∈ c.terminals) (hm : M p (Span.chars piece))
      (ht : t.primaryType = p.name) : Admits c M ⟨.terminal, piece, t⟩
  | symbol {piece t s} (hs : c.symbols.find? (fun u => u.sequence = t.content) = some s)
      (ht : t.types = [s.name]) : Admits c M ⟨.symbol, piece, t⟩
  | fallback {piece t} (hm : ∀ p ∈ c.terminals, ¬ M p (Span.chars piece))
      (hs : ∀ s ∈ c.symbols, ¬ s.sequence.toList <:+: Span.chars piece)
      (ht : t.types = [terminalName]) : Admits c M ⟨.fallback, piece, t⟩

/-- **Pieces that make up a span**, without a gap. Of two neighbours one is a symbol. -/
structure Factoring (c : LexerConfig) (M : TerminalPattern → List Char → Prop) (span : Span)
    (factors : List Factor) : Prop where
  flatten_eq : (factors.map Factor.piece).flatten = span
  covers : ∀ f ∈ factors, f.token.Covers f.piece
  admits : ∀ f ∈ factors, c.Admits M f
  parted : factors.IsChain fun f g => f.kind = .symbol ∨ g.kind = .symbol

theorem Factoring.piece_ne_nil {factors : List Factor} (h : c.Factoring M span factors) :
    ∀ f ∈ factors, f.piece ≠ [] := by
  intro f hf
  exact (h.covers f hf).ne_nil

theorem factoring_single {f : Factor} (hf : f.token.Covers f.piece) (ha : c.Admits M f) :
    c.Factoring M f.piece [f] where
  flatten_eq := by simp
  covers := by simpa using hf
  admits := by simpa using ha
  parted := .singleton f

/-- A symbol joins the pieces on both sides of it. -/
theorem Factoring.around {left right : Span} {fs gs : List Factor} {f : Factor}
    (hl : c.Factoring M left fs) (hf : c.Factoring M f.piece [f]) (hk : f.kind = .symbol)
    (hr : c.Factoring M right gs) : c.Factoring M (left ++ f.piece ++ right) (fs ++ [f] ++ gs) where
  flatten_eq := by
    simp only [List.map_append, List.flatten_append, hl.flatten_eq, hf.flatten_eq, hr.flatten_eq]
  covers := by
    simp only [List.forall_mem_append]
    exact ⟨⟨hl.covers, hf.covers⟩, hr.covers⟩
  admits := by
    simp only [List.forall_mem_append]
    exact ⟨⟨hl.admits, hf.admits⟩, hr.admits⟩
  parted := by
    rw [List.append_assoc, List.isChain_append, List.singleton_append, List.isChain_cons]
    refine ⟨hl.parted, ⟨fun g _ => .inl hk, hr.parted⟩, fun g _ f' hf' => .inr ?_⟩
    obtain rfl : f = f' := by simpa using hf'
    exact hk

/-- The tokens of a span, before keywords are considered, are those of its pieces. -/
theorem Yields.exists_factoring [PatternEngine] (h : c.Yields r) (hM : c.Decides M) (span : Span) :
    ∃ factors, c.Factoring M span factors ∧ r.split span = factors.map Factor.token := by
  fun_induction Rules.split r span with
  | case1 => exact ⟨[], ⟨rfl, by simp, by simp, .nil⟩, rfl⟩
  | case2 first more name names hnames =>
    obtain ⟨p, hp, hm, rfl⟩ := (h.mem_terminalNames_iff hM).mp (hnames ▸ List.mem_cons_self)
    have hcovers := r.covers_withTerminals (Span.covers_token p.name first more) names
    refine ⟨[⟨.terminal, first :: more, _⟩], factoring_single hcovers (.terminal hp hm ?_), rfl⟩
    exact r.primaryType_withTerminals _ names
  | case3 first more hnames hsite =>
    have hm := (h.terminalNames_eq_nil_iff hM).mp hnames
    have hs : ∀ s ∈ c.symbols, ¬ s.sequence.toList <:+: Span.chars (first :: more) := by
      intro s hs hinfix
      obtain ⟨k, u, hu⟩ := h.exists_symbolAt_iff.mpr ⟨s, hs, hinfix⟩
      exact h.site_eq_none_iff.mp hsite k u hu
    exact ⟨[⟨.fallback, first :: more, _⟩],
      factoring_single (Span.covers_token _ _ _) (.fallback hm hs rfl), rfl⟩
  | case4 first more hnames p hp hlt left right ihl ihr =>
    have hsymbol := (h.splitPlace_of_site hM hp).symbolAt
    obtain ⟨t, htokens, hcovers, hcontent, htypes⟩ := hsymbol.exists_token
    obtain ⟨fs, hfs, hleft⟩ := ihl
    obtain ⟨gs, hgs, hright⟩ := ihr
    let f : Factor := ⟨.symbol, right.take p.symbol.sequence.length, t⟩
    have hfirst := hsymbol.first
    rw [← hcontent] at hfirst
    have hf : c.Factoring M f.piece [f] := factoring_single hcovers (.symbol hfirst htypes)
    refine ⟨fs ++ [f] ++ gs, ?_, ?_⟩
    · have hall := hfs.around hf rfl hgs
      rwa [List.append_assoc, List.take_append_drop, List.take_append_drop] at hall
    · rw [hleft, hright, List.map_append, List.map_append]
      exact congrArg (_ ++ · ++ _) htokens

theorem Yields.classify_of_pieces [PatternEngine] (h : c.Yields r) (hM : c.Decides M)
    (hspan : span ≠ []) :
    ∃ factors, c.Factoring M span factors ∧ (∀ f ∈ factors, f.piece ≠ []) ∧
      r.classify span = factors.map (fun f => r.applyKeyword f.token) ∧
      ((∃ p ∈ c.terminals, M p span.chars) → ∃ t, factors = [⟨.terminal, span, t⟩]) := by
  by_cases hm : ∃ p ∈ c.terminals, M p span.chars
  · obtain ⟨t, hsplit, hcovers, p, hp, hmatch, ht⟩ := h.split_of_matches hM hspan hm
    have hfactors : c.Factoring M span [⟨.terminal, span, t⟩] :=
      factoring_single hcovers (.terminal hp hmatch ht)
    refine ⟨_, hfactors, hfactors.piece_ne_nil, ?_, fun _ => ⟨t, rfl⟩⟩
    rw [Rules.classify, hsplit]
    rfl
  · obtain ⟨factors, hfactors, hsplit⟩ := h.exists_factoring hM span
    refine ⟨factors, hfactors, hfactors.piece_ne_nil, ?_, fun hm' => absurd hm' hm⟩
    rw [Rules.classify, hsplit, List.map_map]
    rfl

/-- **The tokens of a span are those of its pieces**, up to keywords, and no piece is empty. If some
terminal pattern matches the span as a whole, it is in one piece. The terminal patterns have to be
valid on their own. -/
theorem classify_factors [E : PatternEngine] {L : PatternLanguage} (hL : E.Implements L)
    (c : LexerConfig) {r : Rules} (hc : c.compile = .ok r)
    (hvalid : ∀ p ∈ c.terminals, L.Valid p.pattern.toList) {span : Span} (hspan : span ≠ []) :
    ∃ factors, c.Factoring (TerminalPattern.MatchesWhole L) span factors ∧
      (∀ f ∈ factors, f.piece ≠ []) ∧
      r.classify span = factors.map (fun f => r.applyKeyword f.token) ∧
      ((∃ p ∈ c.terminals, p.MatchesWhole L span.chars) →
        ∃ t, factors = [⟨.terminal, span, t⟩]) := by
  have h := compile_eq_ok_iff.mp hc
  exact h.classify_of_pieces (decides_matchesWhole hL h hvalid) hspan

theorem factors_of_letter_and_dashes :
    letI := Expr.engine
    let L := Expr.language
    let c : LexerConfig :=
      ((LexerConfig.addSymbol {} "-" "MINUS").addSymbol "--" "DASH").addTerminal "[a-z]" "LETTER"
    let span := locate .start "a--".toList
    Expr.engine.Implements L ∧ ∃ r, c.compile = .ok r ∧
      (∀ p ∈ c.terminals, L.Valid p.pattern.toList) ∧ span ≠ [] ∧
      ∃ factors, c.Factoring (TerminalPattern.MatchesWhole L) span factors ∧
        (∀ f ∈ factors, f.piece ≠ []) ∧
        r.classify span = factors.map (fun f => r.applyKeyword f.token) ∧
        ((∃ p ∈ c.terminals, p.MatchesWhole L (Span.chars span)) →
          ∃ t, factors = [⟨.terminal, span, t⟩]) := by
  intro L c span
  let : PatternEngine := Expr.engine
  obtain ⟨r, hr⟩ : ∃ r, c.compile = .ok r := ⟨_, by cbv⟩
  have hparse : Piece.parse "[a-z]".toList = .ok ⟨.set [('a'.toNat, 'z'.toNat)], 1⟩ := by cbv
  have hvalid : ∀ p ∈ c.terminals, L.Valid p.pattern.toList := by
    intro p hp
    obtain rfl : p = ⟨"[a-z]", "LETTER"⟩ := List.mem_singleton.mp hp
    exact ⟨_, hparse⟩
  exact ⟨Expr.engine_implements, r, hr, hvalid, by decide,
    classify_factors Expr.engine_implements c hr hvalid (by decide)⟩

theorem unfactored_of_unopenedGroup :
    letI := Expr.engine
    let c := withUnopenedGroup
    let span := locate .start ['a', 'x']
    ∃ r, c.compile = .ok r ∧ span ≠ [] ∧
      ¬ ∃ factors, c.Factoring (TerminalPattern.MatchesWhole Expr.language) span factors ∧
        r.classify span = factors.map fun f => r.applyKeyword f.token := by
  intro c span
  obtain ⟨r, hr, t, hclassify, hcovers⟩ := classify_of_unopenedGroup
  refine ⟨r, hr, by decide, ?_⟩
  rintro ⟨factors, hfactors, hmap⟩
  rw [hclassify] at hmap
  obtain ⟨f, rfl, -⟩ := List.map_eq_singleton_iff.mp hmap.symm
  have hpiece : f.piece = span := by simpa using hfactors.flatten_eq
  cases hfactors.admits f (List.mem_singleton_self f) with
  | @terminal piece t p hp hm ht =>
    obtain rfl : piece = span := hpiece
    exact (not_matchesWhole_of_unopenedGroup p hp).1 hm
  | @symbol piece t s hs ht =>
    obtain rfl : piece = span := hpiece
    have hcontent : t.content = "ax" := (hfactors.covers _ (List.mem_singleton_self _)).content_eq
    have hnone : c.symbols.find? (fun u => u.sequence = t.content) = none := by
      rw [hcontent]
      decide
    cases hnone.symm.trans hs
  | @fallback piece t hm hs ht =>
    obtain rfl : piece = span := hpiece
    exact hs ⟨"x", "X"⟩ (by decide) ⟨['a'], [], rfl⟩

end LexerConfig

end ParserKit
