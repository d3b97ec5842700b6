import ParserKit.Proofs.Pattern.Forms
import ParserKit.Proofs.Pattern.Frame

/-!
# Languages of patterns

What an engine does with a pattern is its own affair. What its documentation says of patterns is put
down here as a language that the engine implements.

* `PatternLanguage`: which texts are patterns, and which parts of a text they match.
* **`PatternEngine.Implements`**: the documented behaviour of an engine.
* **`Expr.engine_implements`**: the engine of this library has a language.
* **`TerminalPattern.compile_means_itself`**: which valid patterns are accepted, and that they are
  found in the texts which they match from one end to the other.
-/

namespace ParserKit

/-- **A language of patterns**: which texts are patterns, which of them are within the limits of an
engine, and which part of a text a pattern matches, given what stands before and after the part. -/
structure PatternLanguage where
  Valid (pattern : List Char) : Prop
  Fits (pattern : List Char) : Prop
  Matches (pattern before part after : List Char) : Prop

namespace PatternLanguage

variable (L : PatternLanguage)

/-- A pattern matches a text from one end to the other. -/
def MatchesWhole (pattern text : List Char) : Prop := L.Matches pattern [] text []

/-- Patterns match parts of a text one after the other. -/
def MatchesInTurn : (patterns : List (List Char)) → (before part after : List Char) → Prop
  | [], _, part, _ => part = []
  | p :: ps, before, part, after => ∃ u v, part = u ++ v ∧ L.Matches p before u (v ++ after) ∧
      MatchesInTurn ps (before ++ u) v after

/-- A pattern is over where it ends: behind any other one, which ends in a comment, a parenthesis
that closes no group is part of the comment. -/
def Closed (pattern : List Char) : Prop := ¬ L.Valid (pattern ++ [')'])

end PatternLanguage

/-- **The documented behaviour of an engine** for regular expressions. -/
structure PatternEngine.Implements (E : PatternEngine) (L : PatternLanguage) : Prop where
  /-- The valid expressions are accepted, within the limits of the engine. -/
  accepts_iff (pattern : List Char) :
    (∃ occursIn, E.compile pattern = .ok occursIn) ↔ L.Valid pattern ∧ L.Fits pattern
  /-- A search looks for a match anywhere in the text. -/
  occursIn_iff {pattern : List Char} {occursIn : List Char → Bool}
    (h : E.compile pattern = .ok occursIn) (text : List Char) :
    occursIn text = true ↔
      ∃ before part after, text = before ++ part ++ after ∧ L.Matches pattern before part after
  /-- The sign `^` stands for the start of the text. -/
  caret_iff {before part after : List Char} :
    L.Matches ['^'] before part after ↔ part = [] ∧ before = []
  /-- The sign `$` stands for the end of the text. -/
  dollar_iff {before part after : List Char} :
    L.Matches ['$'] before part after ↔ part = [] ∧ after = []
  /-- The group `(?:x)` is an expression if `x` is one and no comment in it goes on behind it. -/
  valid_grouped_iff {pattern : List Char} (h : L.Valid pattern) :
    L.Valid (grouped pattern) ↔ L.Closed pattern
  /-- A group matches what the expression in it matches. -/
  matches_grouped_iff {pattern before part after : List Char} (h : L.Valid pattern)
    (hgroup : L.Valid (grouped pattern)) :
    L.Matches (grouped pattern) before part after ↔ L.Matches pattern before part after
  /-- A group between the signs `^` and `$` is an expression if the group is one. -/
  valid_between_iff {pattern : List Char} (h : L.Valid pattern) :
    L.Valid ('^' :: (grouped pattern ++ ['$'])) ↔ L.Valid (grouped pattern)
  /-- Signs and groups one behind the other match one after the other. -/
  matches_between_iff {pattern before part after : List Char} (h : L.Valid pattern)
    (hgroup : L.Valid (grouped pattern)) :
    L.Matches ('^' :: (grouped pattern ++ ['$'])) before part after ↔
      L.MatchesInTurn [['^'], grouped pattern, ['$']] before part after

/-! ## The expressions of this library -/

namespace Expr

/-- The language of the expressions that can be read. -/
def language : PatternLanguage where
  Valid pattern := ∃ q, Piece.parse pattern = .ok q
  Fits pattern := ∀ q, Piece.parse pattern = .ok q →
    q.depth ≤ maxDepth ∧ q.form.isTooLarge = false
  Matches pattern before part after := ∃ q, Piece.parse pattern = .ok q ∧
    q.form.expr.Matches (charBefore none before) part (charAfter after none)

variable {pattern before part after : List Char}

theorem language_matches_iff {q : Piece} (hq : Piece.parse pattern = .ok q) :
    language.Matches pattern before part after ↔
      q.form.expr.Matches (charBefore none before) part (charAfter after none) := by
  constructor
  · rintro ⟨q', hq', h⟩
    obtain rfl := Except.ok.inj (hq.symm.trans hq')
    exact h
  · exact fun h => ⟨q, hq, h⟩

theorem language_matchesInTurn_iff {patterns : List (List Char)} {qs : List Piece}
    (h : List.Forall₂ (fun p q => Piece.parse p = .ok q) patterns qs) :
    language.MatchesInTurn patterns before part after ↔
      MatchesAll (qs.map fun q => q.form.expr) (charBefore none before) part
        (charAfter after none) := by
  induction h generalizing before part with
  | nil => exact Iff.rfl
  | @cons p q ps qs hq _ ih =>
    simp only [PatternLanguage.MatchesInTurn, List.map_cons, matchesAll_cons, Matching.andThen,
      language_matches_iff hq, ih, charBefore_append, charAfter_append]

theorem parse_caret : Piece.parse ['^'] = .ok ⟨.look .textStart, 0⟩ := by cbv

theorem parse_dollar : Piece.parse ['$'] = .ok ⟨.look .textEnd, 0⟩ := by cbv

theorem engine_compile_eq_ok_iff {occursIn : List Char → Bool} :
    engine.compile pattern = .ok occursIn ↔
      ∃ q, Piece.parse pattern = .ok q ∧ q.depth ≤ maxDepth ∧ q.form.isTooLarge = false ∧
        q.form.expr.occursIn = occursIn := by
  unfold engine
  dsimp only
  rw [Expr.parse_eq]
  cases hq : Piece.parse pattern with
  | error f => simp [bind, Except.bind]
  | ok q =>
    by_cases hdepth : q.depth ≤ maxDepth
    · cases hlarge : q.form.isTooLarge <;> simp [bind, Except.bind, hdepth, hlarge]
    · simp [bind, Except.bind, hdepth]

theorem not_valid_of_error {f : PatternFault} (h : Piece.parse pattern = .error f) :
    ¬ language.Valid pattern := by
  rintro ⟨q, hq⟩
  cases h.symm.trans hq

theorem engine_compile_of_error {f : PatternFault} (h : Expr.parse pattern = .error f) :
    engine.compile pattern = .error f.error := by
  unfold engine
  dsimp only
  rw [h]

/-- **The engine of this library has a language**, in which a pattern means what it is read as. -/
theorem engine_implements : engine.Implements language where
  accepts_iff pattern := by
    simp only [engine_compile_eq_ok_iff]
    constructor
    · rintro ⟨_, q, hq, hdepth, hlarge, -⟩
      refine ⟨⟨q, hq⟩, fun q' hq' => ?_⟩
      obtain rfl := Except.ok.inj (hq.symm.trans hq')
      exact ⟨hdepth, hlarge⟩
    · rintro ⟨⟨q, hq⟩, hfits⟩
      exact ⟨_, q, hq, (hfits q hq).1, (hfits q hq).2, rfl⟩
  occursIn_iff h text := by
    obtain ⟨q, hq, -, -, rfl⟩ := engine_compile_eq_ok_iff.mp h
    simp only [Expr.occursIn_iff (Piece.bounded_of_parse hq), language_matches_iff hq]
  caret_iff := by
    intro before part after
    rw [language_matches_iff parse_caret]
    refine and_congr_right fun _ => ?_
    rw [Assertion.holds, Option.isNone_iff_eq_none]
    exact ⟨charBefore_eq_none, fun h => h ▸ rfl⟩
  dollar_iff := by
    intro before part after
    rw [language_matches_iff parse_dollar]
    refine and_congr_right fun _ => ?_
    rw [Assertion.holds, Option.isNone_iff_eq_none]
    exact ⟨charAfter_eq_none, fun h => h ▸ rfl⟩
  valid_grouped_iff := by
    rintro pattern ⟨q, hq⟩
    rw [PatternLanguage.Closed]
    rcases Piece.parse_grouped hq with ⟨hbehind, hgroup, -⟩ | ⟨hbehind, hgroup, -⟩
    · exact iff_of_true ⟨_, hgroup⟩ (not_valid_of_error hbehind)
    · exact iff_of_false (not_valid_of_error hgroup) (not_not_intro ⟨_, hbehind⟩)
  matches_grouped_iff := by
    rintro pattern before part after ⟨q, hq⟩ hvalid
    rcases Piece.parse_grouped hq with ⟨-, hgroup, -⟩ | ⟨-, hgroup, -⟩
    · rw [language_matches_iff hgroup, language_matches_iff hq, Form.matches_sequence_singleton]
    · exact absurd hvalid (not_valid_of_error hgroup)
  valid_between_iff := by
    rintro pattern ⟨q, hq⟩
    rw [← anchored_eq]
    rcases Piece.parse_grouped hq with ⟨-, hgroup, hanchored⟩ | ⟨-, hgroup, hanchored⟩
    · exact iff_of_true ⟨_, hanchored⟩ ⟨_, hgroup⟩
    · exact iff_of_false (not_valid_of_error hanchored) (not_valid_of_error hgroup)
  matches_between_iff := by
    rintro pattern before part after ⟨q, hq⟩ hvalid
    rw [← anchored_eq]
    rcases Piece.parse_grouped hq with ⟨-, hgroup, hanchored⟩ | ⟨-, hgroup, -⟩
    · rw [language_matches_iff hanchored, language_matchesInTurn_iff
        (.cons parse_caret (.cons hgroup (.cons parse_dollar .nil))), Form.matches_sequence]
      simp only [List.map_cons, List.map_nil, matchesAll_cons, Form.matches_sequence_singleton]
    · exact absurd hvalid (not_valid_of_error hgroup)

end Expr

/-! ## Terminal patterns -/

section Implementation

variable [E : PatternEngine] {L : PatternLanguage} (h : E.Implements L)
include h

theorem PatternEngine.Implements.valid_anchored_iff {pattern : List Char}
    (hvalid : L.Valid pattern) : L.Valid (anchored pattern) ↔ L.Closed pattern := by
  rw [anchored_eq, h.valid_between_iff hvalid, h.valid_grouped_iff hvalid]

/-- Between the anchors, a group is found where it is the whole text. -/
theorem PatternEngine.Implements.occursIn_anchored_iff {pattern : List Char}
    {occursIn : List Char → Bool} (hvalid : L.Valid pattern)
    (hcompile : E.compile (anchored pattern) = .ok occursIn) (text : List Char) :
    occursIn text = true ↔ L.MatchesWhole pattern text := by
  have hgroup : L.Valid (grouped pattern) := by
    rw [← h.valid_between_iff hvalid, ← anchored_eq]
    exact ((h.accepts_iff _).mp ⟨_, hcompile⟩).1
  rw [h.occursIn_iff hcompile, anchored_eq]
  simp only [h.matches_between_iff hvalid hgroup, PatternLanguage.MatchesInTurn, h.caret_iff,
    h.dollar_iff, h.matches_grouped_iff hvalid hgroup]
  constructor
  · rintro ⟨_, _, _, rfl, _, _, rfl, ⟨rfl, rfl⟩, u, _, rfl, hu, _, _, rfl, ⟨rfl, hafter⟩, rfl⟩
    obtain rfl : _ = [] := by simpa using hafter
    simpa [PatternLanguage.MatchesWhole] using hu
  · intro hm
    have hm : L.Matches pattern ([] ++ []) text ([] ++ []) := hm
    exact ⟨[], text, [], by simp, [], text, rfl, ⟨rfl, rfl⟩, text, [], by simp, hm,
      [], [], rfl, ⟨rfl, rfl⟩, rfl⟩

/-- **A terminal pattern means itself**, if it is a valid expression on its own. What is accepted is
a pattern that is valid in its frame and within the limits of the engine there. A valid pattern is so
unless a comment in it hides the end of the frame, and then it is found in those texts that it
matches from one end to the other. -/
theorem TerminalPattern.compile_means_itself (t : TerminalPattern) :
    ((∃ rule, t.compile = .ok rule) ↔
      L.Valid (anchored t.pattern.toList) ∧ L.Fits (anchored t.pattern.toList)) ∧
    (L.Valid t.pattern.toList →
      ((∃ rule, t.compile = .ok rule) ↔
        L.Closed t.pattern.toList ∧ L.Fits (anchored t.pattern.toList)) ∧
      ∀ rule, t.compile = .ok rule →
        ∀ text, rule.occursIn text = true ↔ L.MatchesWhole t.pattern.toList text) := by
  have hrule (rule : TerminalRule) : t.compile = .ok rule ↔
      E.compile (anchored t.pattern.toList) = .ok rule.occursIn ∧ t.name = rule.name := by
    obtain ⟨occursIn, name⟩ := rule
    unfold TerminalPattern.compile
    cases E.compile (anchored t.pattern.toList) <;> simp
  have haccepted : (∃ rule, t.compile = .ok rule) ↔
      L.Valid (anchored t.pattern.toList) ∧ L.Fits (anchored t.pattern.toList) := by
    simp only [hrule, ← h.accepts_iff]
    constructor
    · rintro ⟨rule, hcompile, -⟩
      exact ⟨_, hcompile⟩
    · rintro ⟨occursIn, hcompile⟩
      exact ⟨⟨occursIn, t.name⟩, hcompile, rfl⟩
  refine ⟨haccepted, fun hvalid => ⟨?_, fun rule hcompile => ?_⟩⟩
  · rw [haccepted, h.valid_anchored_iff hvalid]
  · exact h.occursIn_anchored_iff hvalid ((hrule rule).mp hcompile).1

end Implementation

theorem letters_mean_themselves :
    letI := Expr.engine
    Expr.engine.Implements Expr.language ∧ Expr.language.Valid "a|b".toList ∧
      ∃ rule, TerminalPattern.compile ⟨"a|b", "LETTER"⟩ = .ok rule ∧
        ∀ text, rule.occursIn text = true ↔ text = ['a'] ∨ text = ['b'] := by
  let : PatternEngine := Expr.engine
  have hparse : Piece.parse "a|b".toList = .ok ⟨.set [('a'.toNat, 'b'.toNat)], 1⟩ := by cbv
  have hvalid : Expr.language.Valid "a|b".toList := ⟨_, hparse⟩
  obtain ⟨-, hmeans⟩ :=
    TerminalPattern.compile_means_itself Expr.engine_implements ⟨"a|b", "LETTER"⟩
  obtain ⟨rule, hrule⟩ : ∃ rule, TerminalPattern.compile ⟨"a|b", "LETTER"⟩ = .ok rule :=
    ⟨_, by cbv⟩
  refine ⟨Expr.engine_implements, hvalid, rule, hrule, fun text => ?_⟩
  have hset (c : Char) : CharSet.mem [('a'.toNat, 'b'.toNat)] c = true ↔ c = 'a' ∨ c = 'b' := by
    simp only [CharSet.mem, Ranges.covers, ← Char.toNat_inj]
    have ha : 'a'.toNat = 97 := rfl
    have hb : 'b'.toNat = 98 := rfl
    rw [ha, hb]
    generalize c.toNat = n
    split <;> simp <;> omega
  rw [(hmeans hvalid).2 rule hrule, PatternLanguage.MatchesWhole, Expr.language_matches_iff hparse]
  simp only [Form.expr, Expr.Matches, hset, and_or_left, exists_or, exists_eq_right]

/-- A pattern that is not valid on its own, since it closes a group too many, is accepted, and then
it is found in a text of which it matches a part. A valid pattern is refused, since it ends in a
comment. -/
theorem unopened_group_accepted :
    letI := Expr.engine
    (¬ Expr.language.Valid "a)|(?:b".toList ∧
      ∃ rule, TerminalPattern.compile ⟨"a)|(?:b", "LETTER"⟩ = .ok rule ∧
        rule.occursIn "ax".toList = true) ∧
    Expr.language.Valid "(?x)a#".toList ∧
      ∃ fault, TerminalPattern.compile ⟨"(?x)a#", "LETTER"⟩ =
        .error (.invalidPattern "(?x)a#" fault) := by
  have herror : Piece.parse "a)|(?:b".toList = .error .unopenedGroup := by cbv
  have hcomment : Piece.parse "(?x)a#".toList = .ok ⟨.ofSet (CharSet.single 'a'), 1⟩ := by cbv
  have hhidden : Expr.parse (anchored "(?x)a#".toList) = .error .unclosedGroup := by cbv
  refine ⟨⟨?_, ⟨_, by cbv, by cbv⟩⟩, ⟨_, hcomment⟩, PatternFault.unclosedGroup.error, ?_⟩
  · exact Expr.not_valid_of_error herror
  · unfold TerminalPattern.compile
    rw [Expr.engine_compile_of_error hhidden]

end ParserKit
