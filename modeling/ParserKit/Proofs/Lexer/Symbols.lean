import ParserKit.Proofs.Lexer.Checked

/-!
# Symbols in a text

* `exists_of_longest`: the first among the longest members of a list.
* **`LexerConfig.SymbolAt`**: the symbol that counts at a place of a text;
  `LexerConfig.Yields.symbolAt_iff`: it is the one that the rules find.
* `Rules.mem_sites_iff`, `Rules.pairwise_sites`: all places with a symbol, from left to right.
* `LexerConfig.Led`: a place with a symbol to the left of which a terminal pattern matches, in some
  sense.
* **`LexerConfig.SplitPlace`**: the place that takes precedence over all others;
  `LexerConfig.Yields.splitPlace_of_site`: the rules split a text there.
-/

namespace ParserKit

/-! ## Longest members -/

section Longest

variable {α : Type} {length : α → Nat}

theorem longest_eq_none_iff {as : List α} : longest length as = none ↔ as = [] := by
  cases as with
  | nil => simp [longest]
  | cons a as =>
    simp only [longest, reduceCtorEq, iff_false]
    split
    · simp
    · split <;> simp

/-- **The first among the longest members** comes after shorter ones, and before others that are not
longer. -/
theorem exists_of_longest {as : List α} {a : α} (h : longest length as = some a) :
    ∃ before after, as = before ++ a :: after ∧
      (∀ b ∈ before, length b < length a) ∧ ∀ b ∈ after, length b ≤ length a := by
  induction as generalizing a with
  | nil => simp [longest] at h
  | cons c cs ih =>
    unfold longest at h
    split at h
    · next hnone =>
      obtain rfl := Option.some.inj h
      obtain rfl := longest_eq_none_iff.mp hnone
      exact ⟨[], [], rfl, by simp, by simp⟩
    · next b hb =>
      obtain ⟨before, after, rfl, hbefore, hafter⟩ := ih hb
      split at h
      · next hlt =>
        obtain rfl := Option.some.inj h
        refine ⟨c :: before, after, rfl, ?_, hafter⟩
        simp only [List.mem_cons, forall_eq_or_imp]
        exact ⟨hlt, hbefore⟩
      · next hle =>
        obtain rfl := Option.some.inj h
        refine ⟨[], before ++ b :: after, rfl, by simp, fun d hd => ?_⟩
        simp only [List.mem_append, List.mem_cons] at hd
        rcases hd with hd | rfl | hd
        · have := hbefore d hd; omega
        · omega
        · have := hafter d hd; omega

theorem length_le_of_longest {as : List α} {a b : α} (h : longest length as = some a)
    (hb : b ∈ as) : length b ≤ length a := by
  obtain ⟨before, after, rfl, hbefore, hafter⟩ := exists_of_longest h
  simp only [List.mem_append, List.mem_cons] at hb
  rcases hb with hb | rfl | hb
  · exact Nat.le_of_lt (hbefore b hb)
  · exact Nat.le_refl _
  · exact hafter b hb

theorem find?_of_filter {p q : α → Bool} {as before after : List α} {a : α}
    (h : as.filter p = before ++ a :: after) (hkept : ∀ b, q b = true → p b = true)
    (ha : q a = true) (hbefore : ∀ b ∈ before, q b = false) : as.find? q = some a := by
  have hq : (fun b => decide (p b = true ∧ q b = true)) = q := by
    funext b
    cases hb : q b
    · simp
    · simp [hkept b hb]
  have hfind : (as.filter p).find? q = as.find? fun b => decide (p b = true ∧ q b = true) :=
    List.find?_filter
  rw [hq, h, List.find?_append, List.find?_cons_of_pos ha] at hfind
  have hnone : before.find? q = none := by simpa using hbefore
  rw [← hfind, hnone, Option.none_or]

end Longest

/-! ## The symbol at a place -/

theorem SymbolRule.toList_sequence (s : SymbolRule) :
    s.symbol.sequence.toList = s.sequence.chars := String.toList_ofList

theorem SymbolRule.length_sequence (s : SymbolRule) :
    s.symbol.sequence.length = s.sequence.length := by
  rw [← String.length_toList, s.toList_sequence]
  rfl

namespace LexerConfig

/-- **The symbol at a place of a text**: the longest one that begins there, and of several with the
same sequence the one that is declared first. -/
structure SymbolAt (c : LexerConfig) (text : List Char) (k : Nat) (s : Symbol) : Prop where
  begins : s.sequence.toList <+: text.drop k
  longest : ∀ u ∈ c.symbols, u.sequence.toList <+: text.drop k →
    u.sequence.length ≤ s.sequence.length
  first : c.symbols.find? (fun u => u.sequence = s.sequence) = some s

variable {c : LexerConfig} {r : Rules} {text : List Char} {k : Nat} {s u : Symbol}

theorem SymbolAt.mem (h : c.SymbolAt text k s) : s ∈ c.symbols := List.mem_of_find?_eq_some h.first

theorem SymbolAt.unique (h : c.SymbolAt text k s) (hu : c.SymbolAt text k u) : s = u := by
  have hlen : s.sequence.length = u.sequence.length :=
    Nat.le_antisymm (hu.longest s h.mem h.begins) (h.longest u hu.mem hu.begins)
  have hchars : s.sequence.toList = u.sequence.toList := by
    rw [List.prefix_iff_eq_take.mp h.begins, List.prefix_iff_eq_take.mp hu.begins,
      String.length_toList, String.length_toList, hlen]
  have hfirst := h.first
  rw [String.toList_injective hchars, hu.first] at hfirst
  exact (Option.some.inj hfirst).symm

variable [PatternEngine]

theorem Yields.mem_symbols_iff (h : c.Yields r) :
    s ∈ c.symbols ↔ ∃ rule ∈ r.symbols, rule.symbol = s := by
  rw [h.symbols_eq, List.mem_map]

theorem Yields.symbolAt_eq_none_iff (h : c.Yields r) :
    r.symbolAt (text.drop k) = none ↔ ∀ s ∈ c.symbols, ¬ s.sequence.toList <+: text.drop k := by
  simp only [Rules.symbolAt, longest_eq_none_iff, List.filter_eq_nil_iff, h.mem_symbols_iff,
    List.isPrefixOf_iff_prefix, forall_exists_index, and_imp, forall_apply_eq_imp_iff₂,
    SymbolRule.toList_sequence]

theorem Yields.symbolAt_of_eq_some (h : c.Yields r) {rule : SymbolRule}
    (hs : r.symbolAt (text.drop k) = some rule) : c.SymbolAt text k rule.symbol := by
  rw [Rules.symbolAt] at hs
  have hbegins : rule.sequence.chars <+: text.drop k :=
    List.isPrefixOf_iff_prefix.mp (List.mem_filter.mp (longest_mem hs)).2
  refine ⟨by rwa [rule.toList_sequence], fun u hu hpre => ?_, ?_⟩
  · obtain ⟨v, hv, rfl⟩ := h.mem_symbols_iff.mp hu
    rw [v.toList_sequence] at hpre
    have hv' : v ∈ r.symbols.filter fun s => s.sequence.chars.isPrefixOf (text.drop k) := by
      rw [List.mem_filter, List.isPrefixOf_iff_prefix]
      exact ⟨hv, hpre⟩
    have hle := length_le_of_longest hs hv'
    rwa [v.length_sequence, rule.length_sequence]
  · -- a symbol with the same sequence begins here as well, and those before this one are shorter
    obtain ⟨before, after, hsplit, hbefore, -⟩ := exists_of_longest hs
    have hsame : ∀ u : SymbolRule, u.symbol.sequence = rule.symbol.sequence →
        u.sequence.chars = rule.sequence.chars := fun u hu => by
      rw [← u.toList_sequence, hu, rule.toList_sequence]
    have hrule : r.symbols.find? (fun u => u.symbol.sequence = rule.symbol.sequence) =
        some rule := by
      refine find?_of_filter hsplit (fun u hu => ?_) (by simp) fun u hu => ?_
      · rw [List.isPrefixOf_iff_prefix, hsame u (by simpa using hu)]
        exact hbegins
      · rw [decide_eq_false_iff_not]
        intro heq
        exact absurd (congrArg List.length (hsame u heq)) (Nat.ne_of_lt (hbefore u hu))
    rw [h.symbols_eq, List.find?_map, Function.comp_def, hrule]
    rfl

/-- **The rules find the symbol at a place.** -/
theorem Yields.symbolAt_iff (h : c.Yields r) {rule : SymbolRule} :
    r.symbolAt (text.drop k) = some rule ↔ c.SymbolAt text k rule.symbol := by
  refine ⟨h.symbolAt_of_eq_some, fun hs => ?_⟩
  cases hrule : r.symbolAt (text.drop k) with
  | none => exact absurd hs.begins (h.symbolAt_eq_none_iff.mp hrule _ hs.mem)
  | some rule' =>
    rw [SymbolRule.symbol_injective ((h.symbolAt_of_eq_some hrule).unique hs)]

end LexerConfig

/-! ## All places with a symbol -/

namespace Rules

variable (r : Rules) {text : List Char} {j : Nat} {p : SymbolSite}

theorem symbolAt_nil : r.symbolAt [] = none := by
  have hnone : (r.symbols.filter fun s => s.sequence.chars.isPrefixOf []) = [] := by
    simp [Marker.chars]
  rw [symbolAt, hnone, longest]

theorem mem_sites_iff :
    p ∈ r.sites j text ↔ ∃ i, p.offset = j + i ∧ r.symbolAt (text.drop i) = some p.symbol := by
  induction text generalizing j with
  | nil => simp [sites, symbolAt_nil]
  | cons c cs ih =>
    -- the first place is the head of the text, and the others lie in its tail
    have hsplit : (∃ i, p.offset = j + i ∧ r.symbolAt ((c :: cs).drop i) = some p.symbol) ↔
        (p.offset = j ∧ r.symbolAt (c :: cs) = some p.symbol) ∨
          ∃ i, p.offset = j + 1 + i ∧ r.symbolAt (cs.drop i) = some p.symbol := by
      rw [← Nat.or_exists_add_one]
      simp only [Nat.add_zero, List.drop_zero, List.drop_succ_cons, Nat.add_right_comm j 1,
        Nat.add_assoc]
    rw [hsplit, ← ih, sites]
    split
    · next s hs =>
      have hhead : p = ⟨j, s⟩ ↔ p.offset = j ∧ some s = some p.symbol := by
        obtain ⟨offset, symbol⟩ := p
        simp [eq_comm]
      rw [List.mem_cons, hs, hhead]
    · next hs =>
      rw [hs]
      simp

theorem pairwise_sites (j : Nat) (text : List Char) :
    (r.sites j text).Pairwise fun p q => p.offset < q.offset := by
  induction text generalizing j with
  | nil => exact .nil
  | cons c cs ih =>
    rw [sites]
    split
    · refine .cons (fun q hq => ?_) (ih (j + 1))
      obtain ⟨i, hi, -⟩ := r.mem_sites_iff.mp hq
      show j < q.offset
      omega
    · exact ih (j + 1)

theorem offset_le_of_find?_reverse {q : SymbolSite} {f : SymbolSite → Bool}
    (hp : (r.sites j text).reverse.find? f = some p) (hq : q ∈ r.sites j text) (hf : f q = true) :
    q.offset ≤ p.offset := by
  obtain ⟨-, right, left, hsplit, hright⟩ := List.find?_eq_some_iff_append.mp hp
  have hsorted := List.pairwise_reverse.mpr (r.pairwise_sites j text)
  rw [hsplit, List.pairwise_append] at hsorted
  rw [← List.mem_reverse, hsplit, List.mem_append, List.mem_cons] at hq
  rcases hq with hq | rfl | hq
  · have := hright q hq
    simp [hf] at this
  · exact Nat.le_refl _
  · exact Nat.le_of_lt (List.rel_of_pairwise_cons hsorted.2.1 hq)

/-- Among the places with the longest symbol, the leftmost one is chosen. -/
theorem shorter_or_right_of_longest {q : SymbolSite}
    (hp : longest (fun s => s.symbol.sequence.length) (r.sites j text) = some p)
    (hq : q ∈ r.sites j text) :
    q.symbol.sequence.length < p.symbol.sequence.length ∨
      q.symbol.sequence.length = p.symbol.sequence.length ∧ p.offset ≤ q.offset := by
  obtain ⟨before, after, hsplit, hbefore, hafter⟩ := exists_of_longest hp
  have hsorted := r.pairwise_sites j text
  rw [hsplit, List.pairwise_append] at hsorted
  rw [hsplit, List.mem_append, List.mem_cons] at hq
  rcases hq with hq | rfl | hq
  · exact .inl (hbefore q hq)
  · exact .inr ⟨rfl, Nat.le_refl _⟩
  · have hlen := hafter q hq
    have hlt := List.rel_of_pairwise_cons hsorted.2.1 hq
    omega

end Rules

/-! ## Precedence -/

namespace LexerConfig

variable {M : TerminalPattern → List Char → Prop}

/-- **A place with a symbol, to the left of which some terminal pattern matches**, in the sense of
`M`, all that there is. -/
structure Led (c : LexerConfig) (M : TerminalPattern → List Char → Prop) (text : List Char)
    (k : Nat) (s : Symbol) : Prop where
  symbolAt : c.SymbolAt text k s
  pos : 0 < k
  matchesLeft : ∃ p ∈ c.terminals, M p (text.take k)

/-- **The place with a symbol that takes precedence over all others.** The rightmost one with a
terminal to its left comes first, then the start of the text, and then those with the longest
symbol, from left to right. -/
structure SplitPlace (c : LexerConfig) (M : TerminalPattern → List Char → Prop) (text : List Char)
    (k : Nat) (s : Symbol) : Prop where
  symbolAt : c.SymbolAt text k s
  led : ∀ k' s', c.Led M text k' s' → c.Led M text k s ∧ k' ≤ k
  start : (∀ k' s', ¬ c.Led M text k' s') → ∀ s', c.SymbolAt text 0 s' → k = 0
  longest : (∀ k' s', ¬ c.Led M text k' s') → (∀ s', ¬ c.SymbolAt text 0 s') →
    ∀ k' s', c.SymbolAt text k' s' → s'.sequence.length < s.sequence.length ∨
      s'.sequence.length = s.sequence.length ∧ k ≤ k'

namespace Yields

variable [PatternEngine] {c : LexerConfig} {r : Rules} {text : List Char} {k : Nat} {s : Symbol}
  (h : c.Yields r)
include h

theorem mem_sites {p : SymbolSite} :
    p ∈ r.sites 0 text ↔ c.SymbolAt text p.offset p.symbol.symbol := by
  rw [r.mem_sites_iff, ← h.symbolAt_iff]
  simp

theorem exists_site (hs : c.SymbolAt text k s) :
    ∃ p ∈ r.sites 0 text, p.offset = k ∧ p.symbol.symbol = s := by
  obtain ⟨rule, -, rfl⟩ := h.mem_symbols_iff.mp hs.mem
  exact ⟨⟨k, rule⟩, h.mem_sites.mpr hs, rfl, rfl⟩

/-- The left side of a place is looked at as a text of its own. -/
theorem leftMatches_iff (hM : c.Decides M) {p : SymbolSite} (hp : p ∈ r.sites 0 text) :
    r.leftMatches text p = true ↔ p.offset = 0 ∨ c.Led M text p.offset p.symbol.symbol := by
  rw [Rules.leftMatches, Bool.or_eq_true, beq_iff_eq, h.isTerminal_iff hM]
  constructor
  · rintro (hzero | hleft)
    · exact .inl hzero
    · rcases Nat.eq_zero_or_pos p.offset with hzero | hpos
      · exact .inl hzero
      · exact .inr ⟨h.mem_sites.mp hp, hpos, hleft⟩
  · rintro (hzero | hled)
    · exact .inl hzero
    · exact .inr hled.matchesLeft

theorem site_eq_none_iff : r.site text = none ↔ ∀ k s, ¬ c.SymbolAt text k s := by
  have hsites : r.sites 0 text = [] ↔ ∀ k s, ¬ c.SymbolAt text k s := by
    rw [List.eq_nil_iff_forall_not_mem]
    constructor
    · intro hno k s hs
      obtain ⟨p, hp, -⟩ := h.exists_site hs
      exact hno p hp
    · intro hno p hp
      exact hno _ _ (h.mem_sites.mp hp)
  rw [← hsites, Rules.site]
  split
  · next p hp =>
    have := List.mem_of_find?_eq_some hp
    simp only [reduceCtorEq, false_iff]
    rintro hnil
    simp [hnil] at this
  · exact longest_eq_none_iff

/-- **The rules split a text at the place that takes precedence.** -/
theorem splitPlace_of_site (hM : c.Decides M) {p : SymbolSite} (hp : r.site text = some p) :
    c.SplitPlace M text p.offset p.symbol.symbol := by
  unfold Rules.site at hp
  dsimp only at hp
  split at hp
  · next q hfind =>
    obtain rfl := Option.some.inj hp
    have hmem : q ∈ r.sites 0 text := List.mem_reverse.mp (List.mem_of_find?_eq_some hfind)
    have hsymbol := h.mem_sites.mp hmem
    have hq := (h.leftMatches_iff hM hmem).mp (List.find?_some hfind)
    refine ⟨hsymbol, ?_, ?_, ?_⟩
    · intro k' s' hled
      obtain ⟨q', hq', rfl, rfl⟩ := h.exists_site hled.symbolAt
      have hle := r.offset_le_of_find?_reverse hfind hq' ((h.leftMatches_iff hM hq').mpr (.inr hled))
      have hpos := hled.pos
      exact ⟨hq.resolve_left (by omega), hle⟩
    · intro hno s' _
      exact hq.resolve_right (hno _ _)
    · intro hno hstart
      have hzero := hq.resolve_right (hno _ _)
      rw [hzero] at hsymbol
      exact absurd hsymbol (hstart _)
  · next hfind =>
    have hno : ∀ q ∈ r.sites 0 text, ¬ (q.offset = 0 ∨ c.Led M text q.offset q.symbol.symbol) := by
      intro q hq
      rw [← h.leftMatches_iff hM hq]
      exact List.find?_eq_none.mp hfind q (List.mem_reverse.mpr hq)
    refine ⟨h.mem_sites.mp (longest_mem hp), ?_, ?_, ?_⟩
    · intro k' s' hled
      obtain ⟨q', hq', rfl, rfl⟩ := h.exists_site hled.symbolAt
      exact absurd (.inr hled) (hno q' hq')
    · intro _ s' hs'
      obtain ⟨q', hq', hzero, -⟩ := h.exists_site hs'
      exact absurd (.inl hzero) (hno q' hq')
    · intro _ _ k' s' hs'
      obtain ⟨q', hq', rfl, rfl⟩ := h.exists_site hs'
      rw [SymbolRule.length_sequence, SymbolRule.length_sequence]
      exact r.shorter_or_right_of_longest hp hq'

end Yields

end LexerConfig

end ParserKit
