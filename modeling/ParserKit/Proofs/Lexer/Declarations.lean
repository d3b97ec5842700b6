import ParserKit.Proofs.Lexer.Splitting
import ParserKit.Proofs.Lexer.Stretches
import ParserKit.Proofs.Lexer.Validation

/-!
# The order of declarations

* `CheckedAlike`: two checks with related results, or with the same error;
  **`checkedAlike_mapM_of_perm`**: a list is checked alike in any order, if there is one error only.
* `Rules.Aligned`: rules that draw the same boundaries; **`Rules.Aligned.lexFrom`**: if their tokens
  of spans are related, so are their tokens of texts.
* `Rules.FindsSame`: rules that find the same terminals and symbols;
  **`Rules.FindsSame.split_eq`**: they split a span in the same way.
* `longest_eq_of_perm`: without a tie, the longest member of a list does not depend on the order.
* **`LexerConfig.tokenize_reorder_symbols`**: symbols with distinct sequences may be declared in any
  order.
-/

namespace ParserKit

/-! ## Checks that come out alike -/

/-- **Two checks come out alike**: with related results, or with the same error. -/
inductive CheckedAlike {ε α β : Type} (R : α → β → Prop) : Except ε α → Except ε β → Prop
  | ok {a : α} {b : β} (h : R a b) : CheckedAlike R (.ok a) (.ok b)
  | error (e : ε) : CheckedAlike R (.error e) (.error e)

section Checks

variable {ε α β : Type}

theorem checkedAlike_self (x : Except ε α) : CheckedAlike Eq x x := by
  cases x with
  | ok a => exact .ok rfl
  | error e => exact .error e

theorem CheckedAlike.imp {R S : α → β → Prop} {x : Except ε α} {y : Except ε β}
    (h : CheckedAlike R x y) (hS : ∀ a b, x = .ok a → y = .ok b → R a b → S a b) :
    CheckedAlike S x y := by
  cases h with
  | ok h => exact .ok (hS _ _ rfl rfl h)
  | error e => exact .error e

theorem CheckedAlike.bind {α' β' : Type} {R : α → β → Prop} {S : α' → β' → Prop} {x : Except ε α}
    {y : Except ε β} {k : α → Except ε α'} {l : β → Except ε β'} (h : CheckedAlike R x y)
    (hS : ∀ a b, R a b → CheckedAlike S (k a) (l b)) : CheckedAlike S (x >>= k) (y >>= l) := by
  cases h with
  | ok h => exact hS _ _ h
  | error e => exact .error e

theorem checkedAlike_bind {α' β' : Type} {S : α' → β' → Prop} (x : Except ε α)
    {k : α → Except ε α'} {l : α → Except ε β'} (h : ∀ a, CheckedAlike S (k a) (l a)) :
    CheckedAlike S (x >>= k) (x >>= l) := by
  refine (checkedAlike_self x).bind fun a b hab => ?_
  rw [← hab]
  exact h a

theorem CheckedAlike.trans {R : α → α → Prop} [IsTrans α R] {x y z : Except ε α}
    (h : CheckedAlike R x y) (h' : CheckedAlike R y z) : CheckedAlike R x z := by
  cases h with
  | ok hab =>
    cases h' with
    | ok hbc => exact .ok (trans_of R hab hbc)
  | error e => exact h'

theorem CheckedAlike.map_eq {γ : Type} {f : α → γ} {g : β → γ} {x : Except ε α} {y : Except ε β}
    (h : CheckedAlike (fun a b => f a = g b) x y) : x.map f = y.map g := by
  cases h with
  | ok h => exact congrArg Except.ok h
  | error e => rfl

/-- **A list is checked alike in any order**, if there is only one error that the check can give. -/
theorem checkedAlike_mapM_of_perm {f : α → Except ε β} {e : ε}
    (hf : ∀ a e', f a = .error e' → e' = e) {as bs : List α} (h : as.Perm bs) :
    CheckedAlike List.Perm (as.mapM f) (bs.mapM f) := by
  induction h with
  | nil => exact .ok .nil
  | cons a _ ih =>
    rw [List.mapM_cons, List.mapM_cons]
    exact checkedAlike_bind _ fun b => ih.bind fun bs bs' hbs => .ok (hbs.cons b)
  | swap a b as =>
    simp only [List.mapM_cons]
    cases ha : f a with
    | error e' =>
      cases hb : f b with
      | error e'' =>
        rw [hf a e' ha, hf b e'' hb]
        exact .error e
      | ok y => exact .error e'
    | ok x =>
      cases hb : f b with
      | error e' => exact .error e'
      | ok y =>
        cases as.mapM f with
        | error e' => exact .error e'
        | ok bs => exact .ok (.swap x y bs)
  | trans _ _ ih ih' => exact ih.trans ih'

end Checks

/-! ## Rules with the same boundaries -/

/-- **Rules that draw the same boundaries** in a text, and whose tokens of a span are related. -/
structure Rules.Aligned (R : Token → Token → Prop) (r r' : Rules) : Prop where
  comments_eq : r.comments = r'.comments
  strings_eq : r.strings = r'.strings
  whitespace_eq : r.whitespace = r'.whitespace
  classify : ∀ span, List.Forall₂ R (r.classify span) (r'.classify span)

/-- **The tokens of a text are related** if those of its spans are. Strings have the same token by
both rules. -/
theorem Rules.Aligned.lexFrom {R : Token → Token → Prop} {r r' : Rules} (h : r.Aligned R r')
    (hR : ∀ t, R t t) (span text : Span) :
    List.Forall₂ R (r.lexFrom span text) (r'.lexFrom span text) := by
  have hb : r.boundaries = r'.boundaries := by
    rw [boundaries, boundaries, h.comments_eq, h.strings_eq, h.whitespace_eq]
  rw [← flatMap_stretchesFrom, ← flatMap_stretchesFrom, hb]
  refine List.rel_flatMap (List.forall₂_same.mpr fun _ _ => rfl) fun x y hxy => ?_
  subst hxy
  cases x with
  | span first more => exact h.classify _
  | quoted t first more => exact .cons (hR _) .nil

theorem Rules.Aligned.lex_eq {r r' : Rules} (h : r.Aligned Eq r') (text : String) :
    r.lex text = r'.lex text := by
  have htokens := h.lexFrom (fun _ => rfl) [] (locate .start text.toList)
  rwa [List.forall₂_eq_eq_eq] at htokens

/-- The place at which a text is split depends on the symbols and on the terminal patterns alone. -/
theorem Rules.site_congr {r r' : Rules} (hs : ∀ text, r.symbolAt text = r'.symbolAt text)
    (ht : r.terminals = r'.terminals) (text : List Char) : r.site text = r'.site text := by
  have hsites (k : Nat) (text : List Char) : r.sites k text = r'.sites k text := by
    induction text generalizing k with
    | nil => rfl
    | cons c cs ih => rw [sites, sites, hs, ih]
  have hleft (p : SymbolSite) : r.leftMatches text p = r'.leftMatches text p := by
    rw [leftMatches, leftMatches, isTerminal, isTerminal, ht]
  rw [site, hsites, funext hleft, site]

/-- **Rules that find the same** terminals and symbols in a text. -/
structure Rules.FindsSame (r r' : Rules) : Prop where
  symbolAt_eq : ∀ text, r.symbolAt text = r'.symbolAt text
  terminals_eq : r.terminals = r'.terminals
  multiType_eq : r.multiType = r'.multiType

namespace Rules.FindsSame

variable {r r' : Rules} (h : r.FindsSame r')
include h

theorem terminalNames_eq (text : List Char) : r.terminalNames text = r'.terminalNames text := by
  rw [terminalNames, h.terminals_eq, terminalNames]

theorem site_eq (text : List Char) : r.site text = r'.site text :=
  Rules.site_congr h.symbolAt_eq h.terminals_eq text

/-- **A span is split in the same way.** -/
theorem split_eq (span : Span) : r.split span = r'.split span := by
  fun_induction Rules.split r span with
  | case1 => rw [split]
  | case2 first more name names hnames =>
    rw [split_cons, ← h.terminalNames_eq, hnames]
    dsimp only
    rw [withTerminals, h.multiType_eq, withTerminals]
  | case3 first more hnames hsite =>
    rw [split_cons, ← h.terminalNames_eq, hnames, ← h.site_eq, hsite]
  | case4 first more hnames p hp _ left right ihl ihr =>
    rw [ihl, ihr, split_cons, ← h.terminalNames_eq, hnames, ← h.site_eq, hp]
    rfl

end Rules.FindsSame

/-! ## Symbols in another order -/

/-- **Without a tie, the longest member of a list does not depend on the order.** -/
theorem longest_eq_of_perm {α : Type} {length : α → Nat} {as bs : List α} (h : as.Perm bs)
    (hinj : ∀ a ∈ as, ∀ b ∈ as, length a = length b → a = b) :
    longest length as = longest length bs := by
  cases ha : longest length as with
  | none =>
    obtain rfl := longest_eq_none_iff.mp ha
    exact (longest_eq_none_iff.mpr h.nil_eq.symm).symm
  | some a =>
    cases hb : longest length bs with
    | none =>
      obtain rfl := longest_eq_none_iff.mp hb
      obtain rfl := h.eq_nil
      cases ha
    | some b =>
      have hbmem := h.mem_iff.mpr (longest_mem hb)
      have hamem := h.mem_iff.mp (longest_mem ha)
      have hlen := Nat.le_antisymm (length_le_of_longest hb hamem) (length_le_of_longest ha hbmem)
      rw [hinj a (longest_mem ha) b hbmem hlen]

theorem Marker.chars_injective : Function.Injective Marker.chars := by
  rintro ⟨first, more⟩ ⟨first', more'⟩ h
  obtain ⟨rfl, rfl⟩ := List.cons.inj h
  rfl

/-- Two sequences with which the same text begins differ in length, so there is no tie. -/
theorem Rules.symbolAt_eq_of_perm {r r' : Rules} (hp : r.symbols.Perm r'.symbols)
    (hd : (r.symbols.map SymbolRule.sequence).Nodup) (text : List Char) :
    r.symbolAt text = r'.symbolAt text := by
  refine longest_eq_of_perm (hp.filter _) fun s hs u hu hlen => ?_
  rw [List.mem_filter, List.isPrefixOf_iff_prefix] at hs hu
  have hchars : s.sequence.chars = u.sequence.chars := by
    rw [List.prefix_iff_eq_take.mp hs.2, List.prefix_iff_eq_take.mp hu.2]
    exact congrArg text.take hlen
  exact List.inj_on_of_nodup_map hd hs.1 hu.1 (Marker.chars_injective hchars)

theorem Symbol.error_of_compile {s : Symbol} {e : LexerError} (h : s.compile = .error e) :
    e = .emptySequence .symbol := by
  rw [← errorOf_eq_some_iff, Symbol.errorOf_compile] at h
  exact eq_emptySequence_of_emptyError h

namespace LexerConfig

variable {c : LexerConfig} {r : Rules}

theorem Yields.nodup_sequences [PatternEngine] (h : c.Yields r)
    (hd : (c.symbols.map Symbol.sequence).Nodup) :
    (r.symbols.map SymbolRule.sequence).Nodup := by
  rw [h.symbols_eq, List.map_map] at hd
  refine List.Nodup.of_map (fun m : Marker => String.ofList m.chars) ?_
  rwa [List.map_map]

theorem checkedAlike_reorder_symbols [PatternEngine] {symbols : List Symbol}
    (hp : symbols.Perm c.symbols) :
    CheckedAlike (fun r' r => ∃ symbols, symbols.Perm r.symbols ∧ r' = { r with symbols })
      ({ c with symbols } : LexerConfig).compile c.compile := by
  have hsymbols : CheckedAlike List.Perm (symbols.mapM Symbol.compile)
      (c.symbols.mapM Symbol.compile) :=
    checkedAlike_mapM_of_perm (fun _ _ => Symbol.error_of_compile) hp
  unfold compile
  refine checkedAlike_bind _ fun comments => checkedAlike_bind _ fun strings => ?_
  refine hsymbols.bind fun symbols _ hs => ?_
  refine checkedAlike_bind _ fun keywords => checkedAlike_bind _ fun terminals => ?_
  exact .ok ⟨symbols, hs, rfl⟩

theorem tokenize_eq_map [PatternEngine] (c : LexerConfig) (text : String) :
    c.tokenize text = c.compile.map fun r => r.lex text := by
  cases h : c.compile with
  | ok r => exact c.tokenize_eq h text
  | error e =>
    rw [tokenize, tokenizer, h]
    rfl

/-- **Symbols with distinct sequences may be declared in any order**: the tokens of a text are the
same, or the error is. -/
theorem tokenize_reorder_symbols [PatternEngine] (c : LexerConfig)
    (hd : (c.symbols.map Symbol.sequence).Nodup) {symbols : List Symbol}
    (hp : symbols.Perm c.symbols) (text : String) :
    ({ c with symbols } : LexerConfig).tokenize text = c.tokenize text := by
  rw [tokenize_eq_map, tokenize_eq_map]
  refine ((checkedAlike_reorder_symbols hp).imp fun r' r _ hr hr' => ?_).map_eq
  obtain ⟨symbols, hs, rfl⟩ := hr'
  have hd' : (symbols.map SymbolRule.sequence).Nodup :=
    (hs.map _).nodup_iff.mpr ((compile_eq_ok_iff.mp hr).nodup_sequences hd)
  have hsame : Rules.FindsSame { r with symbols } r :=
    ⟨Rules.symbolAt_eq_of_perm hs hd', rfl, rfl⟩
  have haligned : Rules.Aligned Eq { r with symbols } r := by
    refine ⟨rfl, rfl, rfl, fun span => ?_⟩
    rw [List.forall₂_eq_eq_eq, Rules.classify, hsame.split_eq]
    rfl
  exact haligned.lex_eq text

theorem reorder_dashes :
    letI := Expr.engine
    let c : LexerConfig :=
      ((LexerConfig.addSymbol {} "-" "MINUS").addSymbol "--" "DASH").addTerminal "[a-z]" "LETTER"
    let symbols : List Symbol := [⟨"--", "DASH"⟩, ⟨"-", "MINUS"⟩]
    (c.symbols.map Symbol.sequence).Nodup ∧ symbols.Perm c.symbols ∧
      ({ c with symbols } : LexerConfig).tokenize "a--b-" = c.tokenize "a--b-" := by
  intro c symbols
  let : PatternEngine := Expr.engine
  have hd : (c.symbols.map Symbol.sequence).Nodup := by decide
  have hp : symbols.Perm c.symbols := .swap _ _ _
  exact ⟨hd, hp, tokenize_reorder_symbols c hd hp "a--b-"⟩

end LexerConfig

end ParserKit
