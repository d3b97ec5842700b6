import ParserKit.Proofs.Lexer.WholeText

/-!
# Tokens and the gaps between them

* `CommentRule.Closes`, `StringRule.Closes`: by rules, where a comment or a string ends;
  `CommentRule.closes_of_close?`, `CommentRule.Closes.close?` and the like: the lexer agrees.
* `Rules.Blank`: a stretch of whitespace and closed comments; `Rules.Unclosed`: a comment or a string
  that runs to the end of the text.
* `Token.Covers`, `Tiles`: tokens of the pieces of a span; `Rules.tiles_classify`.
* `Rules.Layout`: tokens, with blank gaps between them, make up a text; **`Rules.layout_lexFrom`**:
  those that the lexer finds do.
-/

namespace ParserKit

/-! ## Comments and strings -/

/-- **A comment with `depth` starts open ends where `rest` is left.** An end is taken only where no
start is recognised, and a single character only where neither is. -/
inductive CommentRule.Closes (t : CommentRule) : Nat → List Char → List Char → Prop
  | closed (rest) : t.Closes 0 rest rest
  | start {depth text rest} (hn : t.nested = true) (h : t.Closes (depth + 2) text rest) :
      t.Closes (depth + 1) (t.start.chars ++ text) rest
  | stop {depth text rest} (hs : ¬ (t.nested = true ∧ t.start.chars <+: t.stop.chars ++ text))
      (h : t.Closes depth text rest) : t.Closes (depth + 1) (t.stop.chars ++ text) rest
  | char {depth c text rest} (hs : ¬ (t.nested = true ∧ t.start.chars <+: c :: text))
      (he : ¬ t.stop.chars <+: c :: text) (h : t.Closes (depth + 1) text rest) :
      t.Closes (depth + 1) (c :: text) rest

/-- **A string ends where `rest` is left.** Its delimiter is taken only where no escape sequence is
recognised, and a single character only where neither is. -/
inductive StringRule.Closes (t : StringRule) : List Char → List Char → Prop
  | delimiter {rest} (he : ∀ e, t.escape = some e → ¬ e.chars <+: t.delimiter.chars ++ rest) :
      t.Closes (t.delimiter.chars ++ rest) rest
  | escape {e text rest} (he : t.escape = some e) (h : t.Closes text rest) :
      t.Closes (e.chars ++ text) rest
  | char {c text rest} (he : ∀ e, t.escape = some e → ¬ e.chars <+: c :: text)
      (hd : ¬ t.delimiter.chars <+: c :: text) (h : t.Closes text rest) : t.Closes (c :: text) rest

namespace Marker

variable {m : Marker} {s : Span}

theorem begins_iff : m.begins s = true ↔ m.chars <+: s.chars := List.isPrefixOf_iff_prefix

theorem chars_take_of_begins {c : Located} (h : m.begins (c :: s) = true) :
    Span.chars (c :: s.take m.more.length) = m.chars := by
  have ht : Span.chars ((c :: s).take m.length) = m.chars := by
    rw [Span.chars_take, ← m.length_chars]
    exact (List.prefix_iff_eq_take.mp (begins_iff.mp h)).symm
  exact ht

theorem chars_of_begins {c : Located} (h : m.begins (c :: s) = true) :
    Span.chars (c :: s) = m.chars ++ Span.chars (s.drop m.more.length) := by
  rw [← chars_take_of_begins h, ← Span.chars_append, List.cons_append, List.take_append_drop]

theorem begins_of_chars {more : List Char} (h : s.chars = m.chars ++ more) :
    ∃ c s', s = c :: s' ∧ m.begins (c :: s') = true ∧ Span.chars (s'.drop m.more.length) = more := by
  cases s with
  | nil => cases h
  | cons c s =>
    have hb : m.begins (c :: s) = true := begins_iff.mpr ⟨more, h.symm⟩
    rw [chars_of_begins hb] at h
    exact ⟨c, s, rfl, hb, List.append_cancel_left h⟩

end Marker

section Close

variable {text rest body : Span} {chars left : List Char}

theorem CommentRule.closes_of_close? {t : CommentRule} {depth : Nat}
    (h : t.close? (depth + 1) text = some rest) : t.Closes (depth + 1) text.chars rest.chars := by
  generalize hd : depth + 1 = d at h
  fun_induction CommentRule.close? t d text generalizing depth with
  | case1 => cases h
  | case2 d c text hn ih =>
    subst hd
    obtain ⟨hn, hs⟩ := Bool.and_eq_true_iff.mp hn
    rw [Marker.chars_of_begins hs]
    exact .start hn (ih rfl h)
  | case3 d c text hn hs hle =>
    rw [Bool.and_eq_true_iff, Marker.begins_iff, Marker.chars_of_begins hs] at hn
    obtain rfl := Option.some.inj h
    obtain rfl : d = 1 := by omega
    rw [Marker.chars_of_begins hs]
    exact .stop hn (.closed _)
  | case4 d c text hn hs hle ih =>
    rw [Bool.and_eq_true_iff, Marker.begins_iff, Marker.chars_of_begins hs] at hn
    obtain ⟨d, rfl⟩ : ∃ k, d = k + 2 := ⟨d - 2, by omega⟩
    rw [Marker.chars_of_begins hs]
    exact .stop hn (ih rfl h)
  | case5 d c text hn hs ih =>
    subst hd
    rw [Bool.and_eq_true_iff, Marker.begins_iff] at hn
    rw [Marker.begins_iff] at hs
    exact .char hn hs (ih rfl h)

theorem CommentRule.Closes.close? {t : CommentRule} {depth : Nat}
    (h : t.Closes depth chars left) (hd : 0 < depth) (hc : text.chars = chars) :
    ∃ rest, t.close? depth text = some rest ∧ rest.chars = left := by
  induction h generalizing text with
  | closed => exact absurd hd (Nat.lt_irrefl 0)
  | start hn h ih =>
    obtain ⟨c, text, rfl, hb, hmore⟩ := Marker.begins_of_chars hc
    rw [CommentRule.close?, if_pos (Bool.and_eq_true_iff.mpr ⟨hn, hb⟩)]
    exact ih (Nat.succ_pos _) hmore
  | @stop depth _ _ hs h ih =>
    rw [← hc, ← Marker.begins_iff, ← Bool.and_eq_true_iff] at hs
    obtain ⟨c, text, rfl, hb, hmore⟩ := Marker.begins_of_chars hc
    rw [CommentRule.close?, if_neg hs, if_pos hb]
    cases depth with
    | zero =>
      cases h
      exact ⟨_, if_pos (Nat.le_refl 1), hmore⟩
    | succ depth =>
      rw [if_neg (by omega)]
      exact ih (Nat.succ_pos _) hmore
  | char hs he h ih =>
    rw [← hc, ← Marker.begins_iff] at he
    rw [← hc, ← Marker.begins_iff, ← Bool.and_eq_true_iff] at hs
    cases text with
    | nil => cases hc
    | cons c text =>
      rw [CommentRule.close?, if_neg hs, if_neg he]
      exact ih (Nat.succ_pos _) (List.cons.inj hc).2

theorem StringRule.Closes.close? {t : StringRule} (h : t.Closes chars left)
    (hc : text.chars = chars) :
    ∃ body rest, t.close? text = some (body, rest) ∧ rest.chars = left := by
  induction h generalizing text with
  | delimiter he =>
    simp only [← hc, ← Marker.begins_iff] at he
    rw [← Option.filter_eq_none_iff] at he
    obtain ⟨c, text, rfl, hb, hmore⟩ := Marker.begins_of_chars hc
    rw [StringRule.close?]
    simp only [he, if_pos hb]
    exact ⟨_, _, rfl, hmore⟩
  | @escape e _ _ he h ih =>
    obtain ⟨c, text, rfl, hb, hmore⟩ := Marker.begins_of_chars hc
    have hf : t.escape.filter (·.begins (c :: text)) = some e :=
      Option.filter_eq_some_iff.mpr ⟨he, hb⟩
    obtain ⟨body, rest, hcl, hleft⟩ := ih hmore
    rw [StringRule.close?]
    simp only [hf, hcl]
    exact ⟨_, _, rfl, hleft⟩
  | char he hd h ih =>
    rw [← hc, ← Marker.begins_iff] at hd
    simp only [← hc, ← Marker.begins_iff] at he
    rw [← Option.filter_eq_none_iff] at he
    cases text with
    | nil => cases hc
    | cons c text =>
      obtain ⟨body, rest, hcl, hleft⟩ := ih (List.cons.inj hc).2
      rw [StringRule.close?]
      simp only [he, if_neg hd, hcl]
      exact ⟨_, _, rfl, hleft⟩

end Close

/-! ## Gaps -/

namespace Rules

variable (r : Rules)

/-- A stretch of whitespace and closed comments. What comes after it is looked at to tell where its
comments end. -/
inductive Blank : List Char → List Char → Prop
  | nil (after) : Blank [] after
  | whitespace {c gap after} (hc : c ∈ r.whitespace) (h : Blank gap after) :
      Blank (c :: gap) after
  | comment {t body gap after} (ht : t ∈ r.comments)
      (hc : t.Closes 1 (body ++ (gap ++ after)) (gap ++ after)) (h : Blank gap after) :
      Blank (t.start.chars ++ body ++ gap) after

/-- A comment or a string that is not closed. -/
inductive Unclosed : List Char → Prop
  | comment {t body} (ht : t ∈ r.comments) (h : ∀ rest, ¬ t.Closes 1 body rest) :
      Unclosed (t.start.chars ++ body)
  | string {t body} (ht : t ∈ r.strings) (h : ∀ rest, ¬ t.Closes body rest) :
      Unclosed (t.delimiter.chars ++ body)

variable {r}

theorem Blank.append {gap more after : List Char} (h : r.Blank gap (more ++ after))
    (hm : r.Blank more after) : r.Blank (gap ++ more) after := by
  generalize hl : more ++ after = later at h
  induction h with
  | nil => exact hm
  | whitespace hc h ih => exact .whitespace hc (ih hl)
  | comment ht hc h ih =>
    subst hl
    rw [List.append_assoc]
    refine .comment ht ?_ (ih rfl)
    rwa [List.append_assoc]

end Rules

/-! ## Tokens of a span -/

/-- A token is made of a piece of located text. -/
structure Token.Covers (t : Token) (piece : Span) : Prop where
  content_eq : t.content = piece.content
  start_eq : piece.head?.map Located.position = some t.start
  stop_eq : piece.getLast?.map Located.position = some t.stop

theorem Token.Covers.ne_nil {t : Token} {piece : Span} (h : t.Covers piece) : piece ≠ [] := by
  rintro rfl
  cases h.start_eq

/-- Tokens of the pieces of a span, without a gap. -/
inductive Tiles : Span → List Token → Prop
  | nil : Tiles [] []
  | cons {t piece span ts} (ht : t.Covers piece) (h : Tiles span ts) : Tiles (piece ++ span) (t :: ts)

theorem Tiles.append {s s' : Span} {ts ts' : List Token} (h : Tiles s ts) (h' : Tiles s' ts') :
    Tiles (s ++ s') (ts ++ ts') := by
  induction h with
  | nil => exact h'
  | cons ht h ih =>
    rw [List.append_assoc]
    exact .cons ht ih

theorem Span.covers_token (type : String) (first : Located) (more : Span) :
    (Span.token type first more).Covers (first :: more) where
  content_eq := rfl
  start_eq := rfl
  stop_eq := by rw [List.getLast?_eq_some_getLast (List.cons_ne_nil _ _)]; rfl

theorem Tiles.single {t : Token} {piece : Span} (h : t.Covers piece) : Tiles piece [t] := by
  have := Tiles.cons h .nil
  rwa [List.append_nil] at this

theorem tiles_tokens (type : String) (span : Span) : Tiles span (Span.tokens type span) := by
  cases span with
  | nil => exact .nil
  | cons first more => exact .single (Span.covers_token type first more)

theorem Token.Covers.of_eq {t u : Token} {piece : Span} (h : t.Covers piece)
    (hc : u.content = t.content) (hs : u.start = t.start) (he : u.stop = t.stop) : u.Covers piece :=
  ⟨hc.trans h.content_eq, hs ▸ h.start_eq, he ▸ h.stop_eq⟩

theorem Token.Covers.addType {t : Token} {piece : Span} (h : t.Covers piece) (type : String) :
    (t.addType type).Covers piece := by
  unfold Token.addType
  split
  · exact h
  · exact h.of_eq rfl rfl rfl

theorem Token.Covers.foldl_addType {t : Token} {piece : Span} (h : t.Covers piece)
    (types : List String) : (types.foldl Token.addType t).Covers piece := by
  induction types generalizing t with
  | nil => exact h
  | cons type types ih => exact ih (h.addType type)

namespace Rules

variable (r : Rules)

theorem tiles_split (span : Span) : Tiles span (r.split span) := by
  fun_induction split r span with
  | case1 => exact .nil
  | case2 first more name names =>
    refine .single ?_
    unfold withTerminals
    split
    · exact (Span.covers_token name first more).foldl_addType names
    · exact Span.covers_token name first more
  | case3 first more => exact .single (Span.covers_token _ first more)
  | case4 first more _ s _ _ left right ihl ihr =>
    have hpiece : Tiles (right.take s.symbol.sequence.length)
        (Span.tokens s.symbol.name (right.take s.symbol.sequence.length)) := tiles_tokens _ _
    have h := (ihl.append hpiece).append ihr
    rwa [List.append_assoc, List.take_append_drop, List.take_append_drop] at h

theorem covers_applyKeyword {t : Token} {piece : Span} (h : t.Covers piece) :
    (r.applyKeyword t).Covers piece := by
  unfold applyKeyword
  split
  · exact h
  · split
    · exact h.addType _
    · exact h.of_eq rfl rfl rfl

/-- **The tokens of a span cover it without a gap.** -/
theorem tiles_classify (span : Span) : Tiles span (r.classify span) := by
  have h := r.tiles_split span
  unfold classify
  generalize r.split span = ts at h ⊢
  induction h with
  | nil => exact .nil
  | cons ht _ ih => exact .cons (r.covers_applyKeyword ht) ih

end Rules

/-! ## Layouts -/

namespace Rules

/-- **Tokens, with blank gaps between them, make up a text.** After the last token and a blank gap
there may be a comment or a string that is not closed. -/
inductive Layout (r : Rules) : Span → List Token → Prop
  | last {gap tail : Span} (hg : r.Blank gap.chars tail.chars)
      (ht : tail = [] ∨ r.Unclosed tail.chars) : Layout r (gap ++ tail) []
  | token {t : Token} {gap piece rest : Span} {ts : List Token}
      (hg : r.Blank gap.chars (piece.chars ++ rest.chars)) (ht : t.Covers piece)
      (h : Layout r rest ts) : Layout r (gap ++ (piece ++ rest)) (t :: ts)

variable {r : Rules} {gap span rest : Span} {ts us : List Token}

theorem Layout.after_blank (hg : r.Blank gap.chars rest.chars) (h : r.Layout rest ts) :
    r.Layout (gap ++ rest) ts := by
  cases h with
  | last hg' ht =>
    rw [Span.chars_append] at hg
    rw [← List.append_assoc]
    exact .last (by rw [Span.chars_append]; exact hg.append hg') ht
  | token hg' ht h =>
    rw [Span.chars_append, Span.chars_append] at hg
    rw [← List.append_assoc]
    exact .token (by rw [Span.chars_append]; exact hg.append hg') ht h

theorem Layout.after_piece {t : Token} {piece : Span} (ht : t.Covers piece) (h : r.Layout rest ts) :
    r.Layout (piece ++ rest) (t :: ts) := by
  show r.Layout ([] ++ (piece ++ rest)) (t :: ts)
  exact .token (.nil _) ht h

theorem Layout.after_tiles (ht : Tiles span ts) (h : r.Layout rest us) :
    r.Layout (span ++ rest) (ts ++ us) := by
  induction ht with
  | nil => exact h
  | cons ht _ ih =>
    rw [List.append_assoc]
    exact ih.after_piece ht

theorem layout_nil : r.Layout [] [] := by
  show r.Layout ([] ++ []) []
  exact .last (.nil _) (.inl rfl)

theorem layout_of_unclosed (h : r.Unclosed span.chars) : r.Layout span [] := by
  show r.Layout ([] ++ span) []
  exact .last (.nil _) (.inr h)

section Delimiters

variable {t : CommentRule} {u : StringRule} {c : Located} {text body : Span}

theorem layout_comment (ht : t ∈ r.comments) (hb : t.start.begins (c :: text) = true)
    (hc : t.close? 1 (text.drop t.start.more.length) = some rest) (h : r.Layout rest ts) :
    r.Layout (c :: text) ts := by
  obtain ⟨body, hbody⟩ := CommentRule.suffix_of_close? hc
  have hcl : t.Closes (0 + 1) (Span.chars (text.drop t.start.more.length)) rest.chars :=
    CommentRule.closes_of_close? hc
  have hgap : r.Blank (Span.chars (c :: text.take t.start.more.length ++ body)) rest.chars := by
    rw [← hbody, Span.chars_append] at hcl
    rw [Span.chars_append, Marker.chars_take_of_begins hb, ← List.append_nil (_ ++ _)]
    exact .comment ht hcl (.nil _)
  have hl := h.after_blank hgap
  rwa [List.append_assoc, hbody, List.cons_append, List.take_append_drop] at hl

theorem unclosed_comment (ht : t ∈ r.comments) (hb : t.start.begins (c :: text) = true)
    (hc : t.close? 1 (text.drop t.start.more.length) = none) :
    r.Unclosed (Span.chars (c :: text)) := by
  rw [Marker.chars_of_begins hb]
  refine .comment ht fun rest hcl => ?_
  obtain ⟨rest', hc', -⟩ := hcl.close? Nat.one_pos rfl
  rw [hc] at hc'
  cases hc'

theorem layout_string (hc : u.close? (text.drop u.delimiter.more.length) = some (body, rest))
    (h : r.Layout rest ts) :
    r.Layout (c :: text)
      (Span.tokens u.name (c :: text.take u.delimiter.more.length ++ body) ++ ts) := by
  have hl := Layout.after_tiles
    (tiles_tokens u.name (c :: text.take u.delimiter.more.length ++ body)) h
  rwa [List.append_assoc, StringRule.append_of_close? hc, List.cons_append,
    List.take_append_drop] at hl

theorem unclosed_string (hu : u ∈ r.strings) (hb : u.delimiter.begins (c :: text) = true)
    (hc : u.close? (text.drop u.delimiter.more.length) = none) :
    r.Unclosed (Span.chars (c :: text)) := by
  rw [Marker.chars_of_begins hb]
  refine .string hu fun rest hcl => ?_
  obtain ⟨body, rest', hc', -⟩ := hcl.close? rfl
  rw [hc] at hc'
  cases hc'

end Delimiters

variable (r)

/-- **The lexer lays out the text.** -/
theorem layout_lexFrom (span text : Span) : r.Layout (span ++ text) (r.lexFrom span text) := by
  fun_induction lexFrom r span text with
  | case1 span =>
    have h := Layout.after_tiles (r.tiles_classify span) (r := r) layout_nil
    rwa [List.append_nil (r.classify span)] at h
  | case2 span c text t hf ih =>
    refine .after_tiles (r.tiles_classify span) ?_
    have hb := List.find?_some hf
    have ht := List.mem_of_find?_eq_some hf
    split
    · next rest hc => exact layout_comment ht hb hc (ih rest hc)
    · next hc => exact layout_of_unclosed (unclosed_comment ht hb hc)
  | case3 span c text hn u hf ih =>
    refine .after_tiles (r.tiles_classify span) ?_
    have hb := List.find?_some hf
    have hu := List.mem_of_find?_eq_some hf
    split
    · next body rest hc => exact layout_string hc (ih body rest hc)
    · next hc => exact layout_of_unclosed (unclosed_string hu hb hc)
  | case4 span c text hn hs hw ih =>
    refine .after_tiles (r.tiles_classify span) ?_
    have hgap : r.Blank (Span.chars [c]) (Span.chars text) := .whitespace hw (.nil _)
    exact Layout.after_blank hgap ih
  | case5 span c text hn hs hw ih =>
    rwa [List.append_assoc] at ih

end Rules

end ParserKit
