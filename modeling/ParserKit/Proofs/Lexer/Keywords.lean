import ParserKit.Proofs.Lexer.Declarations

/-!
# Keywords

* `LexerConfig.IsKeyword`: what counts as a keyword.
* `LexerConfig.Yields.applyKeyword_eq`: the tag of a keyword is the upper-case form of the token, no
  matter by which entry of the list it is found.
* `Token.SamePiece`: tokens that differ in their type tags at most.
* `Rules.FindsSame.aligned`: rules that differ in what they do with keywords only.
* **`LexerConfig.tokenize_keywords`**: keywords may be declared in any order, and more than once.
-/

namespace ParserKit

/-! ## What counts as a keyword -/

def KeywordRule.ofText (keyword : String) : KeywordRule := ⟨keyword, upper keyword⟩

theorem compileKeyword_eq_ok_iff {keyword : String} {rule : KeywordRule} :
    compileKeyword keyword = .ok rule ↔ keyword ≠ "" ∧ rule = .ofText keyword := by
  unfold compileKeyword
  rw [ne_eq, ← String.isEmpty_iff]
  split
  · next h => exact ⟨nofun, fun hk => absurd h hk.1⟩
  · next h => exact ⟨fun hk => ⟨h, (Except.ok.inj hk).symm⟩, fun hk => congrArg _ hk.2.symm⟩

theorem Rules.keywordOf_eq_find? (r : Rules) (text : String) :
    r.keywordOf text = r.keywords.find? fun k =>
      if r.caseSensitive then k.text == text else k.tag == upper text := by
  unfold keywordOf
  cases r.caseSensitive <;> rfl

namespace LexerConfig

/-- **A text is a keyword**: it is in the list, or, where case does not count, a text with the same
upper-case form is. -/
def IsKeyword (c : LexerConfig) (text : String) : Prop :=
  ∃ k ∈ c.keywords, if c.caseSensitive then k = text else upper k = upper text

instance (c : LexerConfig) (text : String) : Decidable (c.IsKeyword text) :=
  inferInstanceAs (Decidable (∃ k ∈ c.keywords, if c.caseSensitive then k = text
    else upper k = upper text))

variable {c : LexerConfig} {r : Rules} {text : String}

theorem isKeyword_of_mem (h : text ∈ c.keywords) : c.IsKeyword text :=
  ⟨text, h, by split <;> rfl⟩

theorem isKeyword_congr {keywords : List String} (hk : ∀ k, k ∈ keywords ↔ k ∈ c.keywords) :
    ({ c with keywords } : LexerConfig).IsKeyword text ↔ c.IsKeyword text :=
  exists_congr fun k => and_congr_left fun _ => hk k

namespace Yields

variable [PatternEngine] (h : c.Yields r)
include h

theorem keywords_eq : r.keywords = c.keywords.map KeywordRule.ofText := by
  have hk := h.keywords.imp fun k rule hrule => (compileKeyword_eq_ok_iff.mp hrule).2.symm
  rwa [← List.forall₂_map_left_iff (R := Eq), List.forall₂_eq_eq_eq, eq_comm] at hk

theorem keyword_ne_empty {k : String} (hk : k ∈ c.keywords) : k ≠ "" := by
  obtain ⟨rule, -, hrule⟩ := exists_of_mem_right h.keywords.flip hk
  exact (compileKeyword_eq_ok_iff.mp hrule).1

theorem tag_of_keywordOf {rule : KeywordRule} (hrule : r.keywordOf text = some rule) :
    c.IsKeyword text ∧ rule.tag = upper text := by
  rw [Rules.keywordOf_eq_find?, ← h.caseSensitive] at hrule
  have hmem := List.mem_of_find?_eq_some hrule
  rw [h.keywords_eq, List.mem_map] at hmem
  obtain ⟨k, hk, rfl⟩ := hmem
  have hfound := List.find?_some hrule
  cases hcase : c.caseSensitive with
  | true =>
    obtain rfl : k = text := by simpa [hcase, KeywordRule.ofText] using hfound
    exact ⟨isKeyword_of_mem hk, rfl⟩
  | false =>
    have hupper : upper k = upper text := by simpa [hcase, KeywordRule.ofText] using hfound
    exact ⟨⟨k, hk, by rwa [hcase, if_neg Bool.false_ne_true]⟩, hupper⟩

theorem not_isKeyword_of_keywordOf (hnone : r.keywordOf text = none) : ¬ c.IsKeyword text := by
  rintro ⟨k, hk, hmatch⟩
  rw [Rules.keywordOf_eq_find?, ← h.caseSensitive, h.keywords_eq, List.find?_eq_none] at hnone
  refine hnone _ (List.mem_map_of_mem hk) ?_
  cases hcase : c.caseSensitive <;> simp_all [KeywordRule.ofText]

/-- **The tag of a keyword is the upper-case form of the token**: it is added to the tags that the
token has, or replaces them. Any other token stays as it is. -/
theorem applyKeyword_eq (t : Token) :
    r.applyKeyword t =
      if c.IsKeyword t.content then
        if c.multiType then t.addType (upper t.content) else t.setType (upper t.content)
      else t := by
  unfold Rules.applyKeyword
  rw [← h.multiType]
  cases hk : r.keywordOf t.content with
  | none => rw [if_neg (h.not_isKeyword_of_keywordOf hk)]
  | some rule =>
    obtain ⟨hkeyword, htag⟩ := h.tag_of_keywordOf hk
    rw [if_pos hkeyword, ← htag]

/-! ## Configurations with other settings -/

/-- The rules of a configuration with keywords from the same list. -/
theorem withKeywords {keywords : List String} (hk : ∀ k ∈ keywords, k ∈ c.keywords) :
    ({ c with keywords } : LexerConfig).Yields
      { r with keywords := keywords.map KeywordRule.ofText } := by
  refine { h with keywords := ?_ }
  rw [List.forall₂_map_right_iff, List.forall₂_same]
  exact fun k hmem => compileKeyword_eq_ok_iff.mpr ⟨h.keyword_ne_empty (hk k hmem), rfl⟩

theorem withCase (value : Bool) :
    (c.setCaseSensitive value).Yields { r with caseSensitive := value } :=
  { h with caseSensitive := rfl }

theorem withMultiType (value : Bool) :
    (c.setMultiType value).Yields { r with multiType := value } :=
  { h with multiType := rfl }

end Yields

end LexerConfig

/-! ## Tokens of the same pieces -/

/-- **Tokens of the same piece of a text**, which differ in their type tags at most. -/
structure Token.SamePiece (t u : Token) : Prop where
  content_eq : t.content = u.content
  start_eq : t.start = u.start
  stop_eq : t.stop = u.stop

namespace Token.SamePiece

variable {t u v : Token}

theorem refl (t : Token) : t.SamePiece t := ⟨rfl, rfl, rfl⟩

theorem symm (h : t.SamePiece u) : u.SamePiece t :=
  ⟨h.content_eq.symm, h.start_eq.symm, h.stop_eq.symm⟩

theorem trans (h : t.SamePiece u) (h' : u.SamePiece v) : t.SamePiece v :=
  ⟨h.content_eq.trans h'.content_eq, h.start_eq.trans h'.start_eq, h.stop_eq.trans h'.stop_eq⟩

end Token.SamePiece

theorem Token.samePiece_addType (t : Token) (type : String) : (t.addType type).SamePiece t := by
  unfold addType
  split
  · exact .refl t
  · exact ⟨rfl, rfl, rfl⟩

theorem Rules.samePiece_applyKeyword (r : Rules) (t : Token) : (r.applyKeyword t).SamePiece t := by
  unfold applyKeyword
  split
  · exact .refl t
  · split
    · exact t.samePiece_addType _
    · exact ⟨rfl, rfl, rfl⟩

/-- **Rules that differ in what they do with keywords only** have tokens of spans that are related as
the results of applying a keyword are. -/
theorem Rules.FindsSame.aligned {R : Token → Token → Prop} {r r' : Rules} (h : r.FindsSame r')
    (hc : r.comments = r'.comments) (hs : r.strings = r'.strings)
    (hw : r.whitespace = r'.whitespace) (hR : ∀ t, R (r.applyKeyword t) (r'.applyKeyword t)) :
    r.Aligned R r' := by
  refine ⟨hc, hs, hw, fun span => ?_⟩
  rw [classify, classify, h.split_eq, List.forall₂_map_left_iff, List.forall₂_map_right_iff,
    List.forall₂_same]
  exact fun t _ => hR t

namespace LexerConfig

/-- **Keywords may be declared in any order, and more than once.** The tag that a keyword gives to a
token is the upper-case form of the token. Where case no longer counts, the tokens of keywords stay as
they are, and all others stay at their places. -/
theorem tokenize_keywords [PatternEngine] (c : LexerConfig) {r : Rules} (hc : c.compile = .ok r)
    {keywords : List String} (hk : ∀ k, k ∈ keywords ↔ k ∈ c.keywords) (text : String) :
    (∃ tokens, c.tokenize text = .ok tokens ∧
      ({ c with keywords } : LexerConfig).tokenize text = .ok tokens) ∧
    (∀ t, r.applyKeyword t =
      if c.IsKeyword t.content then
        if c.multiType then t.addType (upper t.content) else t.setType (upper t.content)
      else t) ∧
    ∃ ts us, (c.setCaseSensitive true).tokenize text = .ok ts ∧
      (c.setCaseSensitive false).tokenize text = .ok us ∧
      List.Forall₂ (fun t u => t.SamePiece u ∧ (t.content ∈ c.keywords → u = t)) ts us := by
  have h := compile_eq_ok_iff.mp hc
  refine ⟨⟨r.lex text, c.tokenize_eq hc text, ?_⟩, h.applyKeyword_eq, ?_⟩
  · have h' := h.withKeywords fun k => (hk k).mp
    rw [tokenize_eq _ (compile_eq_ok_iff.mpr h')]
    have hsame : Rules.FindsSame { r with keywords := keywords.map KeywordRule.ofText } r :=
      ⟨fun _ => rfl, rfl, rfl⟩
    refine congrArg Except.ok ((hsame.aligned rfl rfl rfl fun t => ?_).lex_eq text)
    rw [h'.applyKeyword_eq, h.applyKeyword_eq]
    exact if_congr (isKeyword_congr hk) rfl rfl
  · have hon := h.withCase true
    have hoff := h.withCase false
    refine ⟨_, _, tokenize_eq _ (compile_eq_ok_iff.mpr hon) text,
      tokenize_eq _ (compile_eq_ok_iff.mpr hoff) text, ?_⟩
    have hsame : Rules.FindsSame { r with caseSensitive := true } { r with caseSensitive := false } :=
      ⟨fun _ => rfl, rfl, rfl⟩
    refine (hsame.aligned rfl rfl rfl fun t => ?_).lexFrom (fun t => ⟨.refl t, fun _ => rfl⟩) [] _
    have hpiece := Rules.samePiece_applyKeyword { r with caseSensitive := true } t
    refine ⟨hpiece.trans (Rules.samePiece_applyKeyword _ t).symm, fun hmem => ?_⟩
    rw [hpiece.content_eq] at hmem
    have hmem₁ : t.content ∈ (c.setCaseSensitive true).keywords := hmem
    have hmem₀ : t.content ∈ (c.setCaseSensitive false).keywords := hmem
    rw [hon.applyKeyword_eq, hoff.applyKeyword_eq, if_pos (isKeyword_of_mem hmem₁),
      if_pos (isKeyword_of_mem hmem₀)]
    rfl

theorem keywords_of_doubled_list :
    letI := Expr.engine
    let c : LexerConfig := ((LexerConfig.addKeyword {} "if").addKeyword "IF").addSymbol "-" "MINUS"
    let keywords := ["IF", "if", "if"]
    let front := [Token.ofType "if" "IF" ⟨1, 1, 0⟩ ⟨1, 2, 1⟩,
      .ofType "-" "MINUS" ⟨1, 3, 2⟩ ⟨1, 3, 2⟩]
    let ts := front ++ [.ofType "If" "terminal" ⟨1, 4, 3⟩ ⟨1, 5, 4⟩]
    let us := front ++ [.ofType "If" "IF" ⟨1, 4, 3⟩ ⟨1, 5, 4⟩]
    ∃ r, c.compile = .ok r ∧ (∀ k, k ∈ keywords ↔ k ∈ c.keywords) ∧
      c.tokenize "if-If" = .ok ts ∧ ({ c with keywords } : LexerConfig).tokenize "if-If" = .ok ts ∧
      (∀ t, r.applyKeyword t =
        if c.IsKeyword t.content then
          if c.multiType then t.addType (upper t.content) else t.setType (upper t.content)
        else t) ∧
      (c.setCaseSensitive true).tokenize "if-If" = .ok ts ∧
      (c.setCaseSensitive false).tokenize "if-If" = .ok us ∧
      List.Forall₂ (fun t u => t.SamePiece u ∧ (t.content ∈ c.keywords → u = t)) ts us := by
  intro c keywords front ts us
  let : PatternEngine := Expr.engine
  obtain ⟨r, hr⟩ : ∃ r, c.compile = .ok r := ⟨_, by cbv⟩
  have hk : ∀ k, k ∈ keywords ↔ k ∈ c.keywords := by
    intro k
    show k ∈ ["IF", "if", "if"] ↔ k ∈ ["if", "IF"]
    simp only [List.mem_cons, List.not_mem_nil]
    tauto
  obtain ⟨⟨ts', hts, hlist⟩, happly, ts'', us', hcase, hnoCase, hsame⟩ :=
    tokenize_keywords c hr hk "if-If"
  have htokens : c.tokenize "if-If" = .ok ts := by cbv
  have hcased : (c.setCaseSensitive true).tokenize "if-If" = .ok ts := by cbv
  have huncased : (c.setCaseSensitive false).tokenize "if-If" = .ok us := by cbv
  obtain rfl : ts' = ts := Except.ok.inj (hts.symm.trans htokens)
  obtain rfl : ts'' = ts := Except.ok.inj (hcase.symm.trans hcased)
  obtain rfl : us' = us := Except.ok.inj (hnoCase.symm.trans huncased)
  exact ⟨r, hr, hk, htokens, hlist, happly, hcased, huncased, hsame⟩

end LexerConfig

end ParserKit
