import Mathlib.Data.List.Forall2
import ParserKit.Lexer.Classify
import ParserKit.Proofs.Pattern.Language

/-!
# Checked configurations

What the rules have to do with the configuration that they come from.

* `LexerConfig.Yields`: every entry of a configuration passes its check;
  **`LexerConfig.compile_eq_ok_iff`**: this is when there are rules.
* `CommentRule.type`, `StringRule.type`, `SymbolRule.symbol`: rules keep comment types, string types
  and symbols as they are (`LexerConfig.Yields.symbols_eq` and the like).
* `TerminalPattern.foundIn`, **`TerminalPattern.MatchesWhole`**: the engine finds a terminal pattern
  in a text, and the pattern matches the text from one end to the other.
* `LexerConfig.Decides`: what the engine finds is what matches, in some sense;
  **`LexerConfig.decides_matchesWhole`**: in the second one, if all patterns are valid.
-/

namespace ParserKit

theorem bind_eq_ok_iff {ε α β : Type} {x : Except ε α} {k : α → Except ε β} {b : β} :
    x >>= k = .ok b ↔ ∃ a, x = .ok a ∧ k a = .ok b := by
  cases x with
  | error e => exact ⟨nofun, nofun⟩
  | ok a => exact ⟨fun h => ⟨a, rfl, h⟩, fun ⟨_, ha, h⟩ => Except.ok.inj ha ▸ h⟩

theorem mapM_eq_ok_iff {ε α β : Type} {f : α → Except ε β} {as : List α} {bs : List β} :
    as.mapM f = .ok bs ↔ List.Forall₂ (fun a b => f a = .ok b) as bs := by
  induction as generalizing bs with
  | nil => cases bs <;> simp [pure, Except.pure]
  | cons a as ih =>
    rw [List.mapM_cons, bind_eq_ok_iff, List.forall₂_cons_left_iff]
    simp only [bind_eq_ok_iff, ih, pure, Except.pure, Except.ok.injEq]
    constructor
    · rintro ⟨b, hb, bs, hbs, rfl⟩
      exact ⟨b, bs, hb, hbs, rfl⟩
    · rintro ⟨b, bs, hb, hbs, rfl⟩
      exact ⟨b, hb, bs, hbs, rfl⟩

theorem exists_of_mem_right {α β : Type} {R : α → β → Prop} {as : List α} {bs : List β}
    (h : List.Forall₂ R as bs) {b : β} (hb : b ∈ bs) : ∃ a ∈ as, R a b := by
  induction h with
  | nil => cases hb
  | @cons a b' as bs hab _ ih =>
    rcases List.mem_cons.mp hb with rfl | hb
    · exact ⟨a, List.mem_cons_self, hab⟩
    · obtain ⟨a', ha', hR⟩ := ih hb
      exact ⟨a', List.mem_cons_of_mem _ ha', hR⟩

/-! ## Configurations -/

namespace LexerConfig

variable [PatternEngine]

/-- **Every entry of a configuration passes its check**, and these are the rules. -/
structure Yields (c : LexerConfig) (r : Rules) : Prop where
  comments : List.Forall₂ (fun t u => CommentType.compile t = .ok u) c.comments r.comments
  strings : List.Forall₂ (fun t u => StringType.compile t = .ok u) c.strings r.strings
  symbols : List.Forall₂ (fun s u => Symbol.compile s = .ok u) c.symbols r.symbols
  keywords : List.Forall₂ (fun k u => compileKeyword k = .ok u) c.keywords r.keywords
  terminals : List.Forall₂ (fun t u => TerminalPattern.compile t = .ok u) c.terminals r.terminals
  whitespace : c.whitespace.toList = r.whitespace
  caseSensitive : c.caseSensitive = r.caseSensitive
  multiType : c.multiType = r.multiType

theorem compile_eq_ok_iff {c : LexerConfig} {r : Rules} : c.compile = .ok r ↔ c.Yields r := by
  unfold compile
  simp only [bind_eq_ok_iff, mapM_eq_ok_iff]
  constructor
  · rintro ⟨comments, hc, strings, hs, symbols, hy, keywords, hk, terminals, ht, hr⟩
    obtain rfl := Except.ok.inj hr
    exact ⟨hc, hs, hy, hk, ht, rfl, rfl, rfl⟩
  · rintro ⟨hc, hs, hy, hk, ht, hw, hcase, hmulti⟩
    refine ⟨_, hc, _, hs, _, hy, _, hk, _, ht, ?_⟩
    rw [hw, hcase, hmulti]

end LexerConfig

/-! ## Markers -/

theorem Marker.require_eq_ok_iff {kind : SequenceKind} {text : String} {m : Marker} :
    Marker.require kind text = .ok m ↔ text = String.ofList m.chars := by
  rw [String.ext_iff, String.toList_ofList]
  unfold Marker.require
  split
  · next h =>
    rw [h]
    simp [Marker.chars]
  · next first more h =>
    rw [h]
    constructor
    · intro hm
      rw [← Except.ok.inj hm]
      rfl
    · intro hm
      obtain ⟨rfl, rfl⟩ := List.cons.inj hm
      rfl

def CommentRule.type (t : CommentRule) : CommentType :=
  ⟨String.ofList t.start.chars, String.ofList t.stop.chars, t.nested⟩

theorem CommentType.compile_eq_ok_iff {t : CommentType} {rule : CommentRule} :
    t.compile = .ok rule ↔ t = rule.type := by
  obtain ⟨start, stop, nested⟩ := t
  unfold CommentType.compile
  simp only [bind_eq_ok_iff, Marker.require_eq_ok_iff]
  constructor
  · rintro ⟨_, rfl, _, rfl, hrule⟩
    obtain rfl := Except.ok.inj hrule
    rfl
  · intro h
    obtain ⟨hstart, hstop, hnested⟩ := CommentType.mk.inj h
    exact ⟨rule.start, hstart, rule.stop, hstop, by rw [hnested]⟩

def StringRule.type (t : StringRule) : StringType :=
  ⟨t.name, String.ofList t.delimiter.chars, t.escape.map fun m => String.ofList m.chars⟩

theorem StringType.compile_eq_ok_iff {t : StringType} {rule : StringRule} :
    t.compile = .ok rule ↔ t = rule.type := by
  obtain ⟨ruleName, mark, ruleEscape⟩ := rule
  obtain ⟨name, delimiter, _ | escape⟩ := t
  · simp only [compile, StringRule.type, bind_eq_ok_iff, Marker.require_eq_ok_iff, Except.ok.injEq,
      StringRule.mk.injEq, StringType.mk.injEq]
    constructor
    · rintro ⟨_, rfl, rfl, rfl, rfl⟩
      exact ⟨rfl, rfl, rfl⟩
    · rintro ⟨rfl, rfl, hescape⟩
      exact ⟨mark, rfl, rfl, rfl, (Option.map_eq_none_iff.mp hescape.symm).symm⟩
  · simp only [compile, StringRule.type, bind_eq_ok_iff, Marker.require_eq_ok_iff, Except.ok.injEq,
      StringRule.mk.injEq, StringType.mk.injEq]
    constructor
    · rintro ⟨_, rfl, _, rfl, rfl, rfl, rfl⟩
      exact ⟨rfl, rfl, rfl⟩
    · rintro ⟨rfl, rfl, hescape⟩
      obtain ⟨m, rfl, rfl⟩ := Option.map_eq_some_iff.mp hescape.symm
      exact ⟨mark, rfl, m, rfl, rfl, rfl, rfl⟩

def SymbolRule.symbol (s : SymbolRule) : Symbol := ⟨String.ofList s.sequence.chars, s.name⟩

theorem SymbolRule.symbol_injective : Function.Injective SymbolRule.symbol := by
  rintro ⟨⟨first, more⟩, name⟩ ⟨⟨first', more'⟩, name'⟩ h
  obtain ⟨hsequence, rfl⟩ := Symbol.mk.inj h
  obtain ⟨rfl, rfl⟩ := List.cons.inj (String.ofList_injective hsequence)
  rfl

theorem Symbol.compile_eq_ok_iff {s : Symbol} {rule : SymbolRule} :
    s.compile = .ok rule ↔ s = rule.symbol := by
  obtain ⟨sequence, name⟩ := s
  unfold Symbol.compile
  simp only [bind_eq_ok_iff, Marker.require_eq_ok_iff]
  constructor
  · rintro ⟨m, rfl, hm⟩
    obtain rfl := Except.ok.inj hm
    rfl
  · intro h
    obtain ⟨hsequence, hname⟩ := Symbol.mk.inj h
    exact ⟨rule.sequence, hsequence, by rw [hname]⟩

namespace LexerConfig.Yields

variable [PatternEngine] {c : LexerConfig} {r : Rules} (h : c.Yields r)
include h

theorem comments_eq : c.comments = r.comments.map CommentRule.type := by
  have hc := h.comments
  simp only [CommentType.compile_eq_ok_iff] at hc
  rwa [← List.forall₂_map_right_iff (R := Eq), List.forall₂_eq_eq_eq] at hc

theorem strings_eq : c.strings = r.strings.map StringRule.type := by
  have hs := h.strings
  simp only [StringType.compile_eq_ok_iff] at hs
  rwa [← List.forall₂_map_right_iff (R := Eq), List.forall₂_eq_eq_eq] at hs

theorem symbols_eq : c.symbols = r.symbols.map SymbolRule.symbol := by
  have hs := h.symbols
  simp only [Symbol.compile_eq_ok_iff] at hs
  rwa [← List.forall₂_map_right_iff (R := Eq), List.forall₂_eq_eq_eq] at hs

end LexerConfig.Yields

/-! ## Terminal patterns -/

namespace TerminalPattern

/-- A terminal pattern matches a text from one end to the other. -/
def MatchesWhole (L : PatternLanguage) (p : TerminalPattern) (text : List Char) : Prop :=
  L.MatchesWhole p.pattern.toList text

variable [E : PatternEngine] {p : TerminalPattern} {rule : TerminalRule}

/-- Whether the engine finds a terminal pattern in a text, with the pattern in its frame. -/
def foundIn (p : TerminalPattern) (text : List Char) : Bool :=
  match PatternEngine.compile (anchored p.pattern.toList) with
  | .ok occursIn => occursIn text
  | .error _ => false

theorem occursIn_of_compile (h : p.compile = .ok rule) (text : List Char) :
    rule.occursIn text = p.foundIn text := by
  unfold compile at h
  unfold foundIn
  cases hp : PatternEngine.compile (anchored p.pattern.toList) with
  | ok occursIn =>
    rw [hp] at h
    obtain rfl := Except.ok.inj h
    rfl
  | error fault =>
    rw [hp] at h
    cases h

theorem foundIn_iff_matchesWhole {L : PatternLanguage} (hL : E.Implements L)
    (h : p.compile = .ok rule) (hvalid : L.Valid p.pattern.toList) (text : List Char) :
    p.foundIn text = true ↔ p.MatchesWhole L text := by
  cases hp : PatternEngine.compile (anchored p.pattern.toList) with
  | ok occursIn =>
    have hfound : p.foundIn text = occursIn text := by
      unfold foundIn
      rw [hp]
    rw [hfound]
    exact hL.occursIn_anchored_iff hvalid hp text
  | error fault =>
    unfold compile at h
    rw [hp] at h
    cases h

theorem name_of_compile (h : p.compile = .ok rule) : rule.name = p.name := by
  unfold compile at h
  split at h
  · cases h
    rfl
  · cases h

end TerminalPattern

namespace LexerConfig

variable [E : PatternEngine] {c : LexerConfig} {r : Rules} {text : List Char}
  {M : TerminalPattern → List Char → Prop}

/-- **What the engine finds of the terminal patterns is what matches**, in the sense of `M`. -/
def Decides (c : LexerConfig) (M : TerminalPattern → List Char → Prop) : Prop :=
  ∀ p ∈ c.terminals, ∀ text, p.foundIn text = true ↔ M p text

theorem decides_foundIn (c : LexerConfig) : c.Decides fun p text => p.foundIn text = true :=
  fun _ _ _ => Iff.rfl

namespace Yields

theorem exists_occursIn_iff (h : c.Yields r) (hM : c.Decides M) {P : String → Prop} :
    (∃ rule ∈ r.terminals, rule.occursIn text = true ∧ P rule.name) ↔
      ∃ p ∈ c.terminals, M p text ∧ P p.name := by
  constructor
  · rintro ⟨rule, hrule, ho, hP⟩
    obtain ⟨p, hp, hcompile⟩ := exists_of_mem_right h.terminals hrule
    rw [TerminalPattern.occursIn_of_compile hcompile] at ho
    rw [TerminalPattern.name_of_compile hcompile] at hP
    exact ⟨p, hp, (hM p hp text).mp ho, hP⟩
  · rintro ⟨p, hp, hm, hP⟩
    obtain ⟨rule, hrule, hcompile⟩ := exists_of_mem_right h.terminals.flip hp
    refine ⟨rule, hrule, ?_, ?_⟩
    · rw [TerminalPattern.occursIn_of_compile hcompile]
      exact (hM p hp text).mpr hm
    · rwa [TerminalPattern.name_of_compile hcompile]

theorem mem_terminalNames_iff (h : c.Yields r) (hM : c.Decides M) {name : String} :
    name ∈ r.terminalNames text ↔ ∃ p ∈ c.terminals, M p text ∧ p.name = name := by
  rw [← h.exists_occursIn_iff hM (P := (· = name))]
  simp only [Rules.terminalNames, List.mem_map, List.mem_filter, and_assoc]

/-- **The rules tell whether some terminal pattern matches a text.** -/
theorem isTerminal_iff (h : c.Yields r) (hM : c.Decides M) :
    r.isTerminal text = true ↔ ∃ p ∈ c.terminals, M p text := by
  have hfound : (∃ rule ∈ r.terminals, rule.occursIn text = true ∧ True) ↔ _ :=
    h.exists_occursIn_iff hM (P := fun _ => True)
  simp only [and_true] at hfound
  rw [Rules.isTerminal, List.any_eq_true, hfound]

end Yields

/-- **The engine finds the valid patterns in those texts that they match from one end to the
other.** -/
theorem decides_matchesWhole {L : PatternLanguage} (hL : E.Implements L) (h : c.Yields r)
    (hvalid : ∀ p ∈ c.terminals, L.Valid p.pattern.toList) :
    c.Decides (TerminalPattern.MatchesWhole L) := by
  intro p hp text
  obtain ⟨rule, -, hcompile⟩ := exists_of_mem_right h.terminals.flip hp
  exact TerminalPattern.foundIn_iff_matchesWhole hL hcompile (hvalid p hp) text

end LexerConfig

end ParserKit
