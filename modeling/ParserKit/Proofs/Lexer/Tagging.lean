import ParserKit.Proofs.Lexer.Keywords
import ParserKit.Proofs.Lexer.Stretches

/-!
# Type tags

* `eraseDups_concat`, `nodup_eraseDups`: lists without their later duplicates.
* `Token.types_foldl_addType`: tags that are added one by one.
* `Lexeme`, **`LexerConfig.Pieces`**, `LexerConfig.Lexemes`: the parts of a text that are tokens.
* `LexerConfig.declaredTypes`, `LexerConfig.keywordTypes`: the tags that a configuration has for a
  lexeme; `LexerConfig.typesOf`: those that its token gets, in both modes.
* `LexerConfig.Yields.exists_pieces`, **`LexerConfig.Yields.exists_lexemes`**: the tokens of a span and
  of a text get these tags.
* **`LexerConfig.tokenize_multiType`**: with one type tag and with all of them, the tokens are the
  same up to their tags, and the one tag is among all.
-/

namespace ParserKit

/-! ## Lists -/

theorem forall₂_of_common {α β γ : Type} {R : α → β → Prop} {S : α → γ → Prop} {P : β → γ → Prop}
    (hP : ∀ a b c, R a b → S a c → P b c) {as : List α} {bs : List β} {cs : List γ}
    (hb : List.Forall₂ R as bs) (hc : List.Forall₂ S as cs) : List.Forall₂ P bs cs := by
  induction hb generalizing cs with
  | nil =>
    cases hc
    exact .nil
  | cons hab _ ih =>
    cases hc with
    | cons hac hc => exact .cons (hP _ _ _ hab hac) (ih hc)

section EraseDups

variable {α : Type} [DecidableEq α]

theorem eraseDups_concat (as : List α) (a : α) :
    (as ++ [a]).eraseDups = if a ∈ as then as.eraseDups else as.eraseDups ++ [a] := by
  rw [List.eraseDups_append]
  split
  · next h => simp [List.removeAll, h]
  · next h => simp [List.removeAll, h, List.eraseDups_cons]

theorem nodup_eraseDups (as : List α) : as.eraseDups.Nodup := by
  induction as using List.reverseRecOn with
  | nil => exact .nil
  | append_singleton as a ih =>
    rw [eraseDups_concat]
    split
    · exact ih
    · next h =>
      rw [← List.concat_eq_append]
      exact ih.concat (mt List.mem_eraseDups.mp h)

end EraseDups

/-! ## Tags that are added -/

namespace Token

theorem types_addType (t : Token) (type : String) :
    (t.addType type).types = if type ∈ t.types then t.types else t.types ++ [type] := by
  unfold addType hasType
  simp only [List.contains_iff_mem]
  split <;> rfl

theorem types_foldl_addType {t : Token} {types : List String} (h : t.types = types.eraseDups)
    (more : List String) : (more.foldl addType t).types = (types ++ more).eraseDups := by
  induction more generalizing t types with
  | nil => rwa [List.append_nil]
  | cons type more ih =>
    rw [List.foldl_cons, List.append_cons]
    refine ih ?_
    rw [types_addType, h, eraseDups_concat]
    simp only [List.mem_eraseDups]

end Token

theorem Token.Covers.samePiece {t u : Token} {s : Span} (h : t.Covers s) (h' : u.Covers s) :
    t.SamePiece u where
  content_eq := h.content_eq.trans h'.content_eq.symm
  start_eq := Option.some.inj (h.start_eq.symm.trans h'.start_eq)
  stop_eq := Option.some.inj (h.stop_eq.symm.trans h'.stop_eq)

/-! ## The lexemes of a text -/

/-- What is found in a text does not depend on how many tags its tokens get. -/
theorem Rules.terminalNames_withMultiType (r : Rules) (multiType : Bool) (text : List Char) :
    ({ r with multiType } : Rules).terminalNames text = r.terminalNames text := rfl

theorem Rules.site_withMultiType (r : Rules) (multiType : Bool) (text : List Char) :
    ({ r with multiType } : Rules).site text = r.site text := by
  apply Rules.site_congr
  · intro text
    rfl
  · rfl

/-- A part of a text that is one token: a piece of a span, or a quoted string. -/
inductive Lexeme where
  | piece (kind : LexerConfig.PieceKind) (s : Span)
  | quoted (type : StringRule) (s : Span)

def Lexeme.span : Lexeme → Span
  | piece _ s => s
  | quoted _ s => s

namespace LexerConfig

section Engine

variable [PatternEngine]

/-- **The pieces of a span.** A span in which the engine finds some terminal pattern is one piece, and
so is a span in which it finds none and no symbol occurs. Any other span is split at the symbol that
takes precedence. -/
inductive Pieces (c : LexerConfig) : Span → List Lexeme → Prop
  | nil : Pieces c [] []
  | terminal {s : Span} (hs : s ≠ []) (hm : ∃ p ∈ c.terminals, p.foundIn s.chars = true) :
      Pieces c s [.piece .terminal s]
  | fallback {s : Span} (hs : s ≠ []) (hm : ∀ p ∈ c.terminals, ¬ p.foundIn s.chars = true)
      (hno : ∀ u ∈ c.symbols, ¬ u.sequence.toList <:+: s.chars) :
      Pieces c s [.piece .fallback s]
  | symbol {s : Span} {k : Nat} {u : Symbol} {left right : List Lexeme}
      (hm : ∀ p ∈ c.terminals, ¬ p.foundIn s.chars = true)
      (hu : c.SplitPlace (fun p text => p.foundIn text = true) s.chars k u)
      (hleft : Pieces c (s.take k) left)
      (hright : Pieces c (s.drop (k + u.sequence.length)) right) :
      Pieces c s (left ++ .piece .symbol ((s.drop k).take u.sequence.length) :: right)

/-- **The lexemes of the stretches of a text**: the pieces of its spans, and its quoted strings. -/
inductive Lexemes (c : LexerConfig) : List Stretch → List Lexeme → Prop
  | nil : Lexemes c [] []
  | span {first more stretches xs ys} (hx : c.Pieces (first :: more) xs)
      (h : Lexemes c stretches ys) : Lexemes c (.span first more :: stretches) (xs ++ ys)
  | quoted {t first more stretches ys} (h : Lexemes c stretches ys) :
      Lexemes c (.quoted t first more :: stretches) (.quoted t (first :: more) :: ys)

/-! ## The tags of a lexeme -/

variable (c : LexerConfig)

/-- **The tags that are declared for a lexeme**: the names of all terminal patterns that are found in
it, in order of declaration; the name of the symbol that it is; or the name of its kind. -/
def declaredTypes : Lexeme → List String
  | .piece .terminal s =>
    (c.terminals.filter fun p => p.foundIn s.chars).map TerminalPattern.name
  | .piece .symbol s =>
    ((c.symbols.find? fun u => u.sequence = s.content).map Symbol.name).toList
  | .piece .fallback _ => [terminalName]
  | .quoted t _ => [t.name]

/-- The tag that a lexeme has as a keyword, if it is one. A quoted string is none. -/
def keywordTypes (c : LexerConfig) : Lexeme → List String
  | .piece _ s => if c.IsKeyword s.content then [upper s.content] else []
  | .quoted _ _ => []

/-- **The tags of a lexeme**: all of them, without later duplicates; or one, for which the keyword has
precedence. -/
def typesOf (multiType : Bool) (x : Lexeme) : List String :=
  if multiType then (c.declaredTypes x ++ c.keywordTypes x).eraseDups
  else (c.keywordTypes x ++ c.declaredTypes x).take 1

variable {c}

theorem exists_typesOf_false {x : Lexeme} (h : c.declaredTypes x ≠ []) :
    ∃ type ∈ c.typesOf true x, c.typesOf false x = [type] := by
  have hne : c.keywordTypes x ++ c.declaredTypes x ≠ [] := List.append_ne_nil_of_right_ne_nil _ h
  obtain ⟨type, more, hcons⟩ := List.exists_cons_of_ne_nil hne
  refine ⟨type, ?_, by rw [typesOf, if_neg Bool.false_ne_true, hcons]; rfl⟩
  have hmem : type ∈ c.keywordTypes x ++ c.declaredTypes x := hcons ▸ List.mem_cons_self
  rw [List.mem_append, or_comm, ← List.mem_append] at hmem
  rw [typesOf, if_pos rfl]
  exact List.mem_eraseDups.mpr hmem

theorem typesOf_true_ne_nil {x : Lexeme} (h : c.declaredTypes x ≠ []) : c.typesOf true x ≠ [] := by
  obtain ⟨type, hmem, -⟩ := exists_typesOf_false h
  exact List.ne_nil_of_mem hmem

theorem nodup_typesOf_true (x : Lexeme) : (c.typesOf true x).Nodup := nodup_eraseDups _

/-- **The token of a piece before keywords are considered.** -/
inductive Declares (c : LexerConfig) (multiType : Bool) : Lexeme → Token → Prop
  | piece {kind s t} (hcovers : t.Covers s) (hdeclared : c.declaredTypes (.piece kind s) ≠ [])
      (htypes : t.types = if multiType then (c.declaredTypes (.piece kind s)).eraseDups
        else (c.declaredTypes (.piece kind s)).take 1) : Declares c multiType (.piece kind s) t

/-- **The token of a lexeme.** -/
structure Tags (c : LexerConfig) (multiType : Bool) (x : Lexeme) (t : Token) : Prop where
  covers : t.Covers x.span
  declared : c.declaredTypes x ≠ []
  types_eq : t.types = c.typesOf multiType x

/-- One tag stays one tag in both modes. -/
theorem declares_single {multiType : Bool} {kind : PieceKind} {s : Span} {t : Token} {type : String}
    (hcovers : t.Covers s) (hx : c.declaredTypes (.piece kind s) = [type]) (ht : t.types = [type]) :
    c.Declares multiType (.piece kind s) t := by
  refine .piece hcovers (by rw [hx]; exact List.cons_ne_nil _ _) ?_
  rw [hx, ht]
  cases multiType <;> rfl

namespace Yields

variable {r : Rules} (h : c.Yields r)

include h

theorem terminalNames_eq (text : List Char) :
    r.terminalNames text =
      (c.terminals.filter fun p => p.foundIn text).map TerminalPattern.name := by
  have hrules := h.terminals
  unfold Rules.terminalNames
  generalize c.terminals = patterns, r.terminals = rules at hrules
  induction hrules with
  | nil => rfl
  | @cons p rule patterns rules hp _ ih =>
    rw [List.filter_cons, List.filter_cons, TerminalPattern.occursIn_of_compile hp]
    split
    · rw [List.map_cons, List.map_cons, ih, TerminalPattern.name_of_compile hp]
    · exact ih

/-- **Each piece of a span is a token with the tags that are declared for it.** -/
theorem exists_pieces (span : Span) :
    ∃ xs, c.Pieces span xs ∧ ∀ multiType,
      List.Forall₂ (c.Declares multiType) xs (({ r with multiType } : Rules).split span) := by
  have hM := c.decides_foundIn
  fun_induction Rules.split r span with
  | case1 =>
    refine ⟨[], .nil, fun multiType => ?_⟩
    rw [Rules.split]
    exact .nil
  | case2 first more name names hnames =>
    obtain ⟨p, hp, hm, -⟩ := (h.mem_terminalNames_iff hM).mp (hnames ▸ List.mem_cons_self)
    refine ⟨_, .terminal (List.cons_ne_nil _ _) ⟨p, hp, hm⟩, fun multiType => ?_⟩
    have hdeclared : c.declaredTypes (.piece .terminal (first :: more)) = name :: names :=
      (h.terminalNames_eq _).symm.trans hnames
    rw [Rules.split_cons, Rules.terminalNames_withMultiType, hnames]
    refine .cons (.piece (Rules.covers_withTerminals _ (Span.covers_token _ _ _) names) ?_ ?_) .nil
    · rw [hdeclared]
      exact List.cons_ne_nil _ _
    · rw [hdeclared]
      cases multiType with
      | true =>
        have htoken : (Span.token name first more).types = [name].eraseDups := rfl
        exact Token.types_foldl_addType htoken names
      | false => rfl
  | case3 first more hnames hsite =>
    have hm := (h.terminalNames_eq_nil_iff hM).mp hnames
    refine ⟨_, .fallback (List.cons_ne_nil _ _) hm fun u hu hinfix => ?_, fun multiType => ?_⟩
    · obtain ⟨k, s, hs⟩ := h.exists_symbolAt_iff.mpr ⟨u, hu, hinfix⟩
      exact h.site_eq_none_iff.mp hsite k s hs
    · rw [Rules.split_cons, Rules.terminalNames_withMultiType, hnames, Rules.site_withMultiType,
        hsite]
      exact .cons (declares_single (Span.covers_token _ _ _) rfl rfl) .nil
  | case4 first more hnames p hp hlt left right ihl ihr =>
    have hm := (h.terminalNames_eq_nil_iff hM).mp hnames
    have hplace := h.splitPlace_of_site hM hp
    obtain ⟨xs, hxs, hleft⟩ := ihl
    obtain ⟨ys, hys, hright⟩ := ihr
    obtain ⟨t, htokens, hcovers, hcontent, htypes⟩ := hplace.symbolAt.exists_token
    have hdeclared : c.declaredTypes (.piece .symbol (right.take p.symbol.sequence.length)) =
        [p.symbol.name] := by
      have hfirst := hplace.symbolAt.first
      rw [← hcontent, hcovers.content_eq] at hfirst
      rw [declaredTypes, hfirst]
      rfl
    rw [List.drop_drop, ← p.symbol.length_sequence] at hys
    refine ⟨_, .symbol hm hplace hxs hys, fun multiType => ?_⟩
    rw [Rules.split_cons, Rules.terminalNames_withMultiType, hnames, Rules.site_withMultiType, hp]
    dsimp only
    rw [htokens, List.append_assoc, p.symbol.length_sequence]
    exact List.rel_append (hleft multiType)
      (.cons (declares_single hcovers hdeclared htypes) (hright multiType))

theorem tags_applyKeyword {multiType : Bool} {x : Lexeme} {t : Token}
    (ht : c.Declares multiType x t) :
    c.Tags multiType x (({ r with multiType } : Rules).applyKeyword t) := by
  obtain @⟨kind, s, t, hcovers, hdeclared, htypes⟩ := ht
  refine ⟨Rules.covers_applyKeyword _ hcovers, hdeclared, ?_⟩
  rw [(h.withMultiType multiType).applyKeyword_eq, hcovers.content_eq, typesOf, keywordTypes]
  have hkeyword : (c.setMultiType multiType).IsKeyword s.content ↔ c.IsKeyword s.content := Iff.rfl
  have hmulti : (c.setMultiType multiType).multiType = multiType := rfl
  rw [if_congr hkeyword rfl rfl]
  split
  · cases multiType with
    | true =>
      rw [if_pos rfl] at htypes
      have hadded := Token.types_foldl_addType htypes [upper s.content]
      rw [List.foldl_cons, List.foldl_nil] at hadded
      rw [if_pos hmulti, if_pos rfl]
      exact hadded
    | false => rfl
  · cases multiType with
    | true => rwa [List.append_nil]
    | false => exact htypes

/-- **The tokens of stretches have the tags of their lexemes.** -/
theorem exists_lexemes (stretches : List Stretch) :
    ∃ xs, c.Lexemes stretches xs ∧ ∀ multiType,
      List.Forall₂ (c.Tags multiType) xs
        (stretches.flatMap ({ r with multiType } : Rules).tokensOf) := by
  induction stretches with
  | nil => exact ⟨[], .nil, fun _ => .nil⟩
  | cons x stretches ih =>
    obtain ⟨ys, hys, hrest⟩ := ih
    cases x with
    | span first more =>
      obtain ⟨xs, hxs, hpieces⟩ := h.exists_pieces (first :: more)
      refine ⟨xs ++ ys, .span hxs hys, fun multiType => ?_⟩
      rw [List.flatMap_cons, Rules.tokensOf, Rules.classify]
      refine List.rel_append ?_ (hrest multiType)
      rw [List.forall₂_map_right_iff]
      exact (hpieces multiType).imp fun x t => h.tags_applyKeyword
    | quoted t first more =>
      refine ⟨_, .quoted hys, fun multiType => .cons ?_ (hrest multiType)⟩
      refine ⟨Span.covers_token _ _ _, List.cons_ne_nil _ _, ?_⟩
      cases multiType <;> rfl

end Yields

end Engine

/-- **With one type tag and with all of them, the tokens of a text are the same up to their tags.**
The one tag is among all of them. These are those that are declared for the lexeme of a token, in order
of declaration, and the tag that it has as a keyword; later duplicates are dropped. A pattern that is
valid on its own is found in those pieces that it matches from one end to the other. -/
theorem tokenize_multiType [E : PatternEngine] (c : LexerConfig) {r : Rules}
    (hc : c.compile = .ok r) (text : String) :
    (∃ ts us xs, (c.setMultiType false).tokenize text = .ok ts ∧
      (c.setMultiType true).tokenize text = .ok us ∧ c.Lexemes (r.boundaries.stretches text) xs ∧
      List.Forall₂ (fun t u => t.SamePiece u ∧ ∃ type ∈ u.types, t.types = [type]) ts us ∧
      List.Forall₂ (fun x u => u.Covers x.span ∧ u.types ≠ [] ∧ u.types.Nodup ∧
        c.declaredTypes x ≠ [] ∧ u.types = (c.declaredTypes x ++ c.keywordTypes x).eraseDups)
        xs us) ∧
    ∀ L : PatternLanguage, E.Implements L → ∀ p ∈ c.terminals, L.Valid p.pattern.toList →
      ∀ piece, p.foundIn piece = true ↔ p.MatchesWhole L piece := by
  have h := compile_eq_ok_iff.mp hc
  constructor
  · obtain ⟨xs, hxs, htags⟩ := h.exists_lexemes (r.boundaries.stretches text)
    have hlex (multiType : Bool) : (c.setMultiType multiType).tokenize text =
        .ok ((r.boundaries.stretches text).flatMap ({ r with multiType } : Rules).tokensOf) := by
      rw [tokenize_eq _ (compile_eq_ok_iff.mpr (h.withMultiType multiType)), Rules.lex_eq_flatMap]
      rfl
    refine ⟨_, _, xs, hlex false, hlex true, hxs, ?_, ?_⟩
    · refine forall₂_of_common (fun x t u ht hu => ⟨ht.covers.samePiece hu.covers, ?_⟩)
        (htags false) (htags true)
      rw [ht.types_eq, hu.types_eq]
      exact exists_typesOf_false hu.declared
    · refine (htags true).imp fun x u hu => ⟨hu.covers, ?_, ?_, hu.declared, hu.types_eq⟩
      · rw [hu.types_eq]
        exact typesOf_true_ne_nil hu.declared
      · rw [hu.types_eq]
        exact nodup_typesOf_true x
  · intro L hL p hp hvalid
    obtain ⟨rule, -, hcompile⟩ := exists_of_mem_right h.terminals.flip hp
    exact TerminalPattern.foundIn_iff_matchesWhole hL hcompile hvalid

theorem multiType_of_keyword_and_dash :
    letI := Expr.engine
    let c : LexerConfig := ((((LexerConfig.addSymbol {} "-" "MINUS").addTerminal "[a-z]"
      "LETTER").addTerminal "[a-f]" "DIGIT").addKeyword "a").addString "S" "'" none
    let text := "a-'a'"
    let more : List Token := [.ofType "-" "MINUS" ⟨1, 2, 1⟩ ⟨1, 2, 1⟩,
      .ofType "'a'" "S" ⟨1, 3, 2⟩ ⟨1, 5, 4⟩]
    let ts := .ofType "a" "A" ⟨1, 1, 0⟩ ⟨1, 1, 0⟩ :: more
    let us := ⟨"a", "LETTER", ["DIGIT", "A"], ⟨1, 1, 0⟩, ⟨1, 1, 0⟩⟩ :: more
    ∃ r, c.compile = .ok r ∧ (c.setMultiType false).tokenize text = .ok ts ∧
      (c.setMultiType true).tokenize text = .ok us ∧
      (∃ xs, c.Lexemes (r.boundaries.stretches text) xs ∧
        List.Forall₂ (fun t u => t.SamePiece u ∧ ∃ type ∈ u.types, t.types = [type]) ts us ∧
        List.Forall₂ (fun x u => u.Covers x.span ∧ u.types ≠ [] ∧ u.types.Nodup ∧
          c.declaredTypes x ≠ [] ∧ u.types = (c.declaredTypes x ++ c.keywordTypes x).eraseDups)
          xs us) ∧
      ∀ piece, TerminalPattern.foundIn ⟨"[a-f]", "DIGIT"⟩ piece = true ↔
        TerminalPattern.MatchesWhole Expr.language ⟨"[a-f]", "DIGIT"⟩ piece := by
  intro c text more ts us
  let : PatternEngine := Expr.engine
  obtain ⟨r, hr⟩ : ∃ r, c.compile = .ok r := ⟨_, by cbv⟩
  have hone : (c.setMultiType false).tokenize text = .ok ts := by cbv
  have hall : (c.setMultiType true).tokenize text = .ok us := by cbv
  obtain ⟨⟨ts', us', xs, hts, hus, htags⟩, hfound⟩ := c.tokenize_multiType hr text
  obtain rfl : ts' = ts := Except.ok.inj (hts.symm.trans hone)
  obtain rfl : us' = us := Except.ok.inj (hus.symm.trans hall)
  have hvalid : Expr.language.Valid "[a-f]".toList := ⟨_, by cbv⟩
  exact ⟨r, hr, hone, hall, ⟨xs, htags⟩, hfound _ Expr.engine_implements _ (by decide) hvalid⟩

end LexerConfig

end ParserKit
