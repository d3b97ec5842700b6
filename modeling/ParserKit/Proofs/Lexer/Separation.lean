import ParserKit.Proofs.Lexer.Lossless
import ParserKit.Proofs.Lexer.Relocation

/-!
# Texts in two parts

What comes after a blank does not depend on what comes before it, and the other way round.

* `Rules.Passes`: how a lexer gets through a part of a text; `Rules.EndsInside`: a text that ends
  inside a comment or a string; **`Rules.endsInside_iff`**: a lexer gets through all other texts.
* `Rules.Separates`: a whitespace character that no delimiter contains.
* `Rules.ShutOut`: a text into which no delimiter extends; `CommentRule.Closes.exchange`,
  `StringRule.Closes.exchange`: a comment or a string that is closed stays so when what comes later is
  exchanged for such a text.
* `Rules.Reads`: the tokens of a part that a lexer gets through; **`Rules.Passes.exchange`**: they stay
  so, too.
* **`LexerConfig.tokenize_append`**: a text with a blank in it is lexed in two parts.
* **`LexerConfig.tokenize_comment`**: a closed comment is worth a blank.
-/

namespace ParserKit

/-! ## Getting through a text -/

namespace Rules

variable (r : Rules)

def commentAt (text : List Char) : Option CommentRule :=
  r.comments.find? (·.start.chars.isPrefixOf text)

/-- The string type whose delimiter a text begins with, the first declared. -/
def stringAt (text : List Char) : Option StringRule :=
  r.strings.find? (·.delimiter.chars.isPrefixOf text)

/-- **A lexer gets from a text to what is left of it**, between delimiters at both places. On its way
it leaves closed comments and closed strings behind, and single characters with which neither
begins. -/
inductive Passes : List Char → List Char → Prop
  | refl (rest) : Passes rest rest
  | comment {t text mid rest} (ht : r.commentAt (t.start.chars ++ text) = some t)
      (hc : t.Closes 1 text mid) (h : Passes mid rest) : Passes (t.start.chars ++ text) rest
  | string {t text mid rest} (hn : r.commentAt (t.delimiter.chars ++ text) = none)
      (ht : r.stringAt (t.delimiter.chars ++ text) = some t) (hc : t.Closes text mid)
      (h : Passes mid rest) : Passes (t.delimiter.chars ++ text) rest
  | char {c text rest} (hn : r.commentAt (c :: text) = none) (hs : r.stringAt (c :: text) = none)
      (h : Passes text rest) : Passes (c :: text) rest

/-- **A text ends inside a comment or a string**: a lexer gets to a delimiter after which nothing
closes what it opens. -/
inductive EndsInside : List Char → Prop
  | comment {t text body} (h : r.Passes text (t.start.chars ++ body))
      (ht : r.commentAt (t.start.chars ++ body) = some t) (hb : ∀ rest, ¬ t.Closes 1 body rest) :
      EndsInside text
  | string {t text body} (h : r.Passes text (t.delimiter.chars ++ body))
      (hn : r.commentAt (t.delimiter.chars ++ body) = none)
      (ht : r.stringAt (t.delimiter.chars ++ body) = some t) (hb : ∀ rest, ¬ t.Closes body rest) :
      EndsInside text

/-- **A closed comment**, recognised where a text comes after it, from its start to the place where it
is closed. -/
inductive ClosedComment (after : List Char) : List Char → Prop
  | intro {t body} (ht : r.commentAt (t.start.chars ++ body ++ after) = some t)
      (hc : t.Closes 1 (body ++ after) after) : ClosedComment after (t.start.chars ++ body)

/-- **A whitespace character that separates**: no delimiter of a comment or a string and no escape
sequence contains it. -/
structure Separates (w : Char) : Prop where
  whitespace : w ∈ r.whitespace
  comments : ∀ t ∈ r.comments, w ∉ t.start.chars ∧ w ∉ t.stop.chars
  strings : ∀ t ∈ r.strings, w ∉ t.delimiter.chars ∧ ∀ e ∈ t.escape.toList, w ∉ e.chars

end Rules

/-! ## Delimiters at the beginning of a text -/

namespace Rules

variable {r : Rules} {text : List Char}

theorem commentAt_spec {t : CommentRule} (h : r.commentAt text = some t) :
    t ∈ r.comments ∧ t.start.chars <+: text :=
  ⟨List.mem_of_find?_eq_some h, List.isPrefixOf_iff_prefix.mp
    (List.find?_some (p := fun t : CommentRule => t.start.chars.isPrefixOf text) h)⟩

theorem stringAt_spec {t : StringRule} (h : r.stringAt text = some t) :
    t ∈ r.strings ∧ t.delimiter.chars <+: text :=
  ⟨List.mem_of_find?_eq_some h, List.isPrefixOf_iff_prefix.mp
    (List.find?_some (p := fun t : StringRule => t.delimiter.chars.isPrefixOf text) h)⟩

end Rules

/-! ## What is left is a part of the text -/

section Suffix

variable {text rest : List Char}

theorem CommentRule.Closes.suffix {t : CommentRule} {depth : Nat} (h : t.Closes depth text rest) :
    rest <:+ text := by
  induction h with
  | closed => exact List.suffix_refl _
  | start _ _ ih => exact ih.trans (List.suffix_append _ _)
  | stop _ _ ih => exact ih.trans (List.suffix_append _ _)
  | char _ _ _ ih => exact ih.trans (List.suffix_cons _ _)

theorem StringRule.Closes.suffix {t : StringRule} (h : t.Closes text rest) : rest <:+ text := by
  induction h with
  | delimiter => exact List.suffix_append _ _
  | escape _ _ ih => exact ih.trans (List.suffix_append _ _)
  | char _ _ _ ih => exact ih.trans (List.suffix_cons _ _)

theorem Rules.Passes.suffix {r : Rules} (h : r.Passes text rest) : rest <:+ text := by
  induction h with
  | refl => exact List.suffix_refl _
  | comment _ hc _ ih => exact (ih.trans hc.suffix).trans (List.suffix_append _ _)
  | string _ _ hc _ ih => exact (ih.trans hc.suffix).trans (List.suffix_append _ _)
  | char _ _ _ ih => exact ih.trans (List.suffix_cons _ _)

end Suffix

/-! ## Either a lexer gets through a text, or the text ends inside something -/

section Unique

variable {text rest rest' : List Char}

theorem CommentRule.Closes.unique {t : CommentRule} {depth : Nat} (h : t.Closes depth text rest)
    (h' : t.Closes depth text rest') (hd : 0 < depth) : rest = rest' := by
  obtain ⟨s, hs, rfl⟩ := h.close? hd (chars_locate .start text)
  obtain ⟨s', hs', rfl⟩ := h'.close? hd (chars_locate .start text)
  rw [Option.some.inj (hs.symm.trans hs')]

theorem StringRule.Closes.unique {t : StringRule} (h : t.Closes text rest)
    (h' : t.Closes text rest') : rest = rest' := by
  obtain ⟨b, s, hs, rfl⟩ := h.close? (chars_locate .start text)
  obtain ⟨b', s', hs', rfl⟩ := h'.close? (chars_locate .start text)
  rw [(Prod.mk.inj (Option.some.inj (hs.symm.trans hs'))).2]

end Unique

namespace Rules

variable {r : Rules} {text mid rest : List Char}

theorem Passes.trans (h : r.Passes text mid) (h' : r.Passes mid rest) : r.Passes text rest := by
  induction h with
  | refl => exact h'
  | comment ht hc _ ih => exact .comment ht hc (ih h')
  | string hn ht hc _ ih => exact .string hn ht hc (ih h')
  | char hn hs _ ih => exact .char hn hs (ih h')

theorem EndsInside.of_passes (h : r.Passes text mid) (h' : r.EndsInside mid) : r.EndsInside text := by
  cases h' with
  | comment hp ht hb => exact .comment (h.trans hp) ht hb
  | string hp hn ht hb => exact .string (h.trans hp) hn ht hb

section Inversion

variable {c : Char}

theorem Passes.of_comment {t : CommentRule} (h : r.Passes (t.start.chars ++ text) [])
    (ht : r.commentAt (t.start.chars ++ text) = some t) :
    ∃ mid, t.Closes 1 text mid ∧ r.Passes mid [] := by
  generalize hx : t.start.chars ++ text = whole at h ht
  cases h with
  | refl => cases hx
  | comment ht' hc h =>
    obtain rfl := Option.some.inj (ht.symm.trans ht')
    exact ⟨_, List.append_cancel_left hx ▸ hc, h⟩
  | string hn => rw [ht] at hn; cases hn
  | char hn => rw [ht] at hn; cases hn

theorem Passes.of_string {t : StringRule} (h : r.Passes (t.delimiter.chars ++ text) [])
    (hn : r.commentAt (t.delimiter.chars ++ text) = none)
    (ht : r.stringAt (t.delimiter.chars ++ text) = some t) :
    ∃ mid, t.Closes text mid ∧ r.Passes mid [] := by
  generalize hx : t.delimiter.chars ++ text = whole at h hn ht
  cases h with
  | refl => cases hx
  | comment ht' => rw [hn] at ht'; cases ht'
  | string _ ht' hc h =>
    obtain rfl := Option.some.inj (ht.symm.trans ht')
    exact ⟨_, List.append_cancel_left hx ▸ hc, h⟩
  | char _ hs => rw [ht] at hs; cases hs

theorem Passes.of_char (h : r.Passes (c :: text) []) (hn : r.commentAt (c :: text) = none)
    (hs : r.stringAt (c :: text) = none) : r.Passes text [] := by
  generalize hx : c :: text = whole at h hn hs
  cases h with
  | refl => cases hx
  | comment ht => rw [hn] at ht; cases ht
  | string _ ht => rw [hs] at ht; cases ht
  | char _ _ h => exact (List.cons.inj hx).2 ▸ h

end Inversion

/-- From any place that a lexer gets to, it gets as far as from the beginning. -/
theorem Passes.cancel (h : r.Passes text mid) (h' : r.Passes text []) : r.Passes mid [] := by
  induction h with
  | refl => exact h'
  | comment ht hc _ ih =>
    obtain ⟨_, hc', h'⟩ := h'.of_comment ht
    exact ih (hc'.unique hc Nat.one_pos ▸ h')
  | string hn ht hc _ ih =>
    obtain ⟨_, hc', h'⟩ := h'.of_string hn ht
    exact ih (hc'.unique hc ▸ h')
  | char hn hs _ ih => exact ih (h'.of_char hn hs)

theorem passes_or_endsInside (text : List Char) : r.Passes text [] ∨ r.EndsInside text := by
  induction hl : text.length using Nat.strongRecOn generalizing text with
  | ind n ih =>
    subst hl
    cases hc : r.commentAt text with
    | some t =>
      obtain ⟨body, rfl⟩ := (commentAt_spec hc).2
      by_cases hb : ∃ mid, t.Closes 1 body mid
      · obtain ⟨mid, hb⟩ := hb
        have hlt : mid.length < (t.start.chars ++ body).length := by
          have := hb.suffix.length_le
          rw [List.length_append, t.start.length_chars, Marker.length]
          omega
        exact (ih _ hlt mid rfl).imp (.comment hc hb) (.of_passes (.comment hc hb (.refl mid)))
      · exact .inr (.comment (.refl _) hc (not_exists.mp hb))
    | none =>
      cases hs : r.stringAt text with
      | some t =>
        obtain ⟨body, rfl⟩ := (stringAt_spec hs).2
        by_cases hb : ∃ mid, t.Closes body mid
        · obtain ⟨mid, hb⟩ := hb
          have hlt : mid.length < (t.delimiter.chars ++ body).length := by
            have := hb.suffix.length_le
            rw [List.length_append, t.delimiter.length_chars, Marker.length]
            omega
          exact (ih _ hlt mid rfl).imp (.string hc hs hb) (.of_passes (.string hc hs hb (.refl mid)))
        · exact .inr (.string (.refl _) hc hs (not_exists.mp hb))
      | none =>
        cases text with
        | nil => exact .inl (.refl [])
        | cons c text =>
          exact (ih _ (Nat.lt_succ_self _) text rfl).imp (.char hc hs)
            (.of_passes (.char hc hs (.refl text)))

/-- **A lexer gets through a text unless the text ends inside a comment or a string.** -/
theorem endsInside_iff (text : List Char) : r.EndsInside text ↔ ¬ r.Passes text [] := by
  refine ⟨fun h hp => ?_, (r.passes_or_endsInside text).resolve_left⟩
  cases h with
  | comment h ht hb =>
    obtain ⟨mid, hc, -⟩ := (h.cancel hp).of_comment ht
    exact hb mid hc
  | string h hn ht hb =>
    obtain ⟨mid, hc, -⟩ := (h.cancel hp).of_string hn ht
    exact hb mid hc

end Rules

/-! ## What comes later, exchanged -/

/-- A marker does not extend into `y`: where it begins a text that ends with `y`, it lies before it. -/
def Marker.ShutOut (m : Marker) (y : List Char) : Prop := ∀ u, m.chars <+: u ++ y → m.chars <+: u

theorem Marker.shutOut_nil (m : Marker) : m.ShutOut [] := fun u h => by rwa [List.append_nil] at h

theorem Marker.shutOut_cons {m : Marker} {w : Char} (hw : w ∉ m.chars) (v : List Char) :
    m.ShutOut (w :: v) := by
  intro u h
  rcases Nat.lt_or_ge u.length m.chars.length with hlt | hle
  · have hu : u ++ [w] <+: u ++ w :: v := (List.prefix_append_right_inj u).mpr ⟨v, rfl⟩
    have hm : u ++ [w] <+: m.chars :=
      List.prefix_of_prefix_length_le hu h (by rw [List.length_append]; exact hlt)
    exact absurd (hm.subset (by simp)) hw
  · exact List.prefix_of_prefix_length_le h (List.prefix_append u _) hle

/-- **No delimiter and no escape sequence extends into a text** that comes later. -/
structure Rules.ShutOut (r : Rules) (y : List Char) : Prop where
  comments : ∀ t ∈ r.comments, t.start.ShutOut y ∧ t.stop.ShutOut y
  strings : ∀ t ∈ r.strings, t.delimiter.ShutOut y ∧ ∀ e ∈ t.escape.toList, e.ShutOut y

theorem Rules.shutOut_nil (r : Rules) : r.ShutOut [] :=
  ⟨fun t _ => ⟨t.start.shutOut_nil, t.stop.shutOut_nil⟩,
    fun t _ => ⟨t.delimiter.shutOut_nil, fun e _ => e.shutOut_nil⟩⟩

theorem Rules.Separates.shutOut {r : Rules} {w : Char} (hw : r.Separates w) (v : List Char) :
    r.ShutOut (w :: v) where
  comments t ht :=
    ⟨Marker.shutOut_cons (hw.comments t ht).1 v, Marker.shutOut_cons (hw.comments t ht).2 v⟩
  strings t ht := ⟨Marker.shutOut_cons (hw.strings t ht).1 v,
    fun e he => Marker.shutOut_cons ((hw.strings t ht).2 e he) v⟩

section Exchange

variable {text left u u' x y : List Char}

theorem Marker.ShutOut.not_begins {m : Marker} (hm : m.ShutOut y) (h : ¬ m.chars <+: u ++ x) :
    ¬ m.chars <+: u ++ y :=
  fun hy => h ((hm u hy).trans (List.prefix_append u x))

theorem find?_exchange {α : Type} (marker : α → Marker) {as : List α}
    (hy : ∀ a ∈ as, (marker a).ShutOut y) {o : Option α}
    (h : as.find? (fun a => (marker a).chars.isPrefixOf (u ++ x)) = o)
    (ho : ∀ a ∈ o, (marker a).chars <+: u) :
    as.find? (fun a => (marker a).chars.isPrefixOf (u ++ y)) = o := by
  induction as with
  | nil => exact h
  | cons a as ih =>
    obtain ⟨hya, hy⟩ := List.forall_mem_cons.mp hy
    by_cases ha : (marker a).chars <+: u ++ x
    · simp only [List.find?_cons, List.isPrefixOf_iff_prefix.mpr ha] at h
      have hu : (marker a).chars <+: u ++ y := (ho a h.symm).trans (List.prefix_append u _)
      simp only [List.find?_cons, List.isPrefixOf_iff_prefix.mpr hu, h]
    · have hno := hya.not_begins ha
      rw [← List.isPrefixOf_iff_prefix, Bool.not_eq_true] at ha hno
      simp only [List.find?_cons, ha] at h
      simp only [List.find?_cons, hno, ih hy h]

theorem Rules.ShutOut.commentAt {r : Rules} (hy : r.ShutOut y) {o : Option CommentRule}
    (h : r.commentAt (u ++ x) = o) (ho : ∀ t ∈ o, t.start.chars <+: u) :
    r.commentAt (u ++ y) = o :=
  find?_exchange CommentRule.start (fun t ht => (hy.comments t ht).1) h ho

theorem Rules.ShutOut.stringAt {r : Rules} (hy : r.ShutOut y) {o : Option StringRule}
    (h : r.stringAt (u ++ x) = o) (ho : ∀ t ∈ o, t.delimiter.chars <+: u) :
    r.stringAt (u ++ y) = o :=
  find?_exchange StringRule.delimiter (fun t ht => (hy.strings t ht).1) h ho

/-- **A closed comment stays closed** when what comes after it is exchanged. -/
theorem CommentRule.Closes.exchange {t : CommentRule} {depth : Nat} (h : t.Closes depth text left)
    (htext : text = u ++ x) (hleft : left = u' ++ x) (hstart : t.start.ShutOut y)
    (hstop : t.stop.ShutOut y) : t.Closes depth (u ++ y) (u' ++ y) := by
  have hx : x <:+ left := hleft ▸ List.suffix_append u' x
  induction h generalizing u with
  | closed rest =>
    obtain rfl := List.append_cancel_right (htext.symm.trans hleft)
    exact .closed _
  | @start depth text rest hn h ih =>
    obtain ⟨more, rfl⟩ := hx.trans h.suffix
    rw [← List.append_assoc] at htext
    obtain rfl := List.append_cancel_right htext
    rw [List.append_assoc]
    exact .start hn (ih rfl hleft hx)
  | @stop depth text rest hs h ih =>
    obtain ⟨more, rfl⟩ := hx.trans h.suffix
    rw [← List.append_assoc] at htext hs
    obtain rfl := List.append_cancel_right htext
    rw [List.append_assoc]
    refine .stop (fun ⟨hn, hy⟩ => ?_) (ih rfl hleft hx)
    rw [← List.append_assoc] at hy
    exact hstart.not_begins (fun hp => hs ⟨hn, hp⟩) hy
  | @char depth c text rest hs he h ih =>
    obtain ⟨more, rfl⟩ := hx.trans h.suffix
    rw [← List.cons_append] at htext hs he
    obtain rfl := List.append_cancel_right htext
    exact .char (fun ⟨hn, hy⟩ => hstart.not_begins (fun hp => hs ⟨hn, hp⟩) hy)
      (hstop.not_begins he) (ih rfl hleft hx)

/-- **A closed string stays closed** when what comes after it is exchanged. -/
theorem StringRule.Closes.exchange {t : StringRule} (h : t.Closes text left) (htext : text = u ++ x)
    (hleft : left = u' ++ x) (hdelimiter : t.delimiter.ShutOut y)
    (hescape : ∀ e ∈ t.escape.toList, e.ShutOut y) : t.Closes (u ++ y) (u' ++ y) := by
  have hx : x <:+ left := hleft ▸ List.suffix_append u' x
  have hesc {e : Marker} (he : t.escape = some e) : e.ShutOut y :=
    hescape e (Option.mem_toList.mpr he)
  induction h generalizing u with
  | @delimiter rest he =>
    subst hleft
    rw [← List.append_assoc] at htext
    obtain rfl := List.append_cancel_right htext
    rw [List.append_assoc]
    refine .delimiter fun e hte => ?_
    rw [← List.append_assoc]
    exact (hesc hte).not_begins (by rw [List.append_assoc]; exact he e hte)
  | @escape e text rest hte h ih =>
    obtain ⟨more, rfl⟩ := hx.trans h.suffix
    rw [← List.append_assoc] at htext
    obtain rfl := List.append_cancel_right htext
    rw [List.append_assoc]
    exact .escape hte (ih rfl hleft hx)
  | @char c text rest he hd h ih =>
    obtain ⟨more, rfl⟩ := hx.trans h.suffix
    rw [← List.cons_append] at htext hd
    obtain rfl := List.append_cancel_right htext
    exact .char (fun e hte => (hesc hte).not_begins (u := c :: more) (he e hte))
      (hdelimiter.not_begins hd) (ih rfl hleft hx)

end Exchange

/-! ## The lexer on a part that it gets through -/

theorem Span.eq_of_suffix {s s' whole : Span} (h : s <:+ whole) (h' : s' <:+ whole)
    (hc : s.chars = s'.chars) : s = s' := by
  have hlen : s.length = s'.length := by rw [← length_chars, hc, length_chars]
  exact (List.suffix_of_suffix_length_le h h' (Nat.le_of_eq hlen)).eq_of_length hlen

theorem Span.exists_of_chars_eq_cons {s : Span} {c : Char} {cs : List Char} (h : s.chars = c :: cs) :
    ∃ (a : Located) (s' : Span), s = a :: s' ∧ a.char = c ∧ s'.chars = cs :=
  List.map_eq_cons_iff.mp h

theorem Span.exists_of_chars_eq_append {s : Span} {a b : List Char} (h : s.chars = a ++ b) :
    ∃ sa sb : Span, s = sa ++ sb ∧ sa.chars = a ∧ sb.chars = b :=
  List.map_eq_append_iff.mp h

namespace Rules

variable {r : Rules} {opening body rest : Span}

theorem lexFrom_past_comment {t : CommentRule} (ho : opening.chars = t.start.chars)
    (ht : r.commentAt (opening ++ (body ++ rest)).chars = some t)
    (hc : t.Closes 1 (body ++ rest).chars rest.chars) (span : Span) :
    r.lexFrom span (opening ++ (body ++ rest)) = r.classify span ++ r.lexFrom [] rest := by
  obtain ⟨found, hf, hchars⟩ := hc.close? Nat.one_pos rfl
  obtain rfl : found = rest := Span.eq_of_suffix (CommentRule.suffix_of_close? hf)
    (List.suffix_append body rest) hchars
  have hlen : opening.length = t.start.length := by rw [← Span.length_chars, ho, Marker.length_chars]
  cases opening with
  | nil => cases ho
  | cons c opening =>
    have ht : r.comments.find? (·.start.begins (c :: (opening ++ (body ++ found)))) = some t := ht
    rw [List.cons_append, lexFrom_comment ht, ← List.cons_append, ← hlen, List.drop_left, outlook, hf]

theorem lexFrom_past_string {t : StringRule} (ho : opening.chars = t.delimiter.chars)
    (hn : r.commentAt (opening ++ (body ++ rest)).chars = none)
    (ht : r.stringAt (opening ++ (body ++ rest)).chars = some t)
    (hc : t.Closes (body ++ rest).chars rest.chars) (span : Span) :
    r.lexFrom span (opening ++ (body ++ rest)) =
      r.classify span ++ (Span.tokens t.name (opening ++ body) ++ r.lexFrom [] rest) := by
  obtain ⟨inner, found, hf, hchars⟩ := hc.close? rfl
  have happ := StringRule.append_of_close? hf
  obtain rfl : found = rest := Span.eq_of_suffix ⟨inner, happ⟩ (List.suffix_append body rest) hchars
  obtain rfl := List.append_cancel_right happ
  have hlen : opening.length = t.delimiter.length := by
    rw [← Span.length_chars, ho, Marker.length_chars]
  cases opening with
  | nil => cases ho
  | cons c opening =>
    have hn : r.comments.find? (·.start.begins (c :: (opening ++ (inner ++ found)))) = none := hn
    have ht : r.strings.find? (·.delimiter.begins (c :: (opening ++ (inner ++ found)))) = some t := ht
    rw [List.cons_append, lexFrom_string hn ht, ← List.cons_append, ← hlen, List.drop_left,
      List.take_left, outlook, hf]

/-- **A lexer reads a span** on its way, with `after` behind it. From what it has read since the last
boundary, it comes to the tokens that are complete and to what it has read since then. -/
inductive Reads (r : Rules) (after : Span) : Span → Span → List Token → Span → Prop
  | nil {span} : Reads r after span [] [] span
  | comment {t span opening body rest ts span'} (ho : Span.chars opening = t.start.chars)
      (ht : r.commentAt (Span.chars (opening ++ (body ++ (rest ++ after)))) = some t)
      (hc : t.Closes 1 (Span.chars (body ++ (rest ++ after))) (Span.chars (rest ++ after)))
      (h : Reads r after [] rest ts span') :
      Reads r after span (opening ++ (body ++ rest)) (r.classify span ++ ts) span'
  | string {t span opening body rest ts span'} (ho : Span.chars opening = t.delimiter.chars)
      (hn : r.commentAt (Span.chars (opening ++ (body ++ (rest ++ after)))) = none)
      (ht : r.stringAt (Span.chars (opening ++ (body ++ (rest ++ after)))) = some t)
      (hc : t.Closes (Span.chars (body ++ (rest ++ after))) (Span.chars (rest ++ after)))
      (h : Reads r after [] rest ts span') :
      Reads r after span (opening ++ (body ++ rest))
        (r.classify span ++ (Span.tokens t.name (opening ++ body) ++ ts)) span'
  | whitespace {a span rest ts span'} (hn : r.commentAt (Span.chars (a :: (rest ++ after))) = none)
      (hs : r.stringAt (Span.chars (a :: (rest ++ after))) = none)
      (hw : a.char ∈ r.whitespace) (h : Reads r after [] rest ts span') :
      Reads r after span (a :: rest) (r.classify span ++ ts) span'
  | char {a span rest ts span'} (hn : r.commentAt (Span.chars (a :: (rest ++ after))) = none)
      (hs : r.stringAt (Span.chars (a :: (rest ++ after))) = none)
      (hw : a.char ∉ r.whitespace) (h : Reads r after (span ++ [a]) rest ts span') :
      Reads r after span (a :: rest) ts span'

theorem Passes.reads {whole left : List Char} (h : r.Passes whole left) {u x : Span}
    (hwhole : whole = u.chars ++ x.chars) (hleft : left = x.chars) (span : Span) :
    ∃ ts span', r.Reads x span u ts span' := by
  -- `x` is left behind every stretch, so its delimiters and its body lie in `u` as a whole
  induction h generalizing u span with
  | refl =>
    subst hleft
    obtain rfl : u = [] := by simpa [Span.chars] using hwhole
    exact ⟨[], span, .nil⟩
  | comment ht hc h ih =>
    subst hleft
    obtain ⟨after, rfl⟩ := h.suffix
    obtain ⟨inner, rfl⟩ := hc.suffix
    rw [← List.append_assoc inner, ← List.append_assoc] at hwhole
    obtain ⟨opening, inside, rfl, ho, hi⟩ :=
      Span.exists_of_chars_eq_append (List.append_cancel_right hwhole).symm
    obtain ⟨body, rest, rfl, rfl, rfl⟩ := Span.exists_of_chars_eq_append hi
    obtain ⟨ts, span', hreads⟩ := ih rfl rfl []
    rw [← ho] at ht
    exact ⟨_, span', .comment ho (by simpa using ht) (by simpa using hc) hreads⟩
  | string hn ht hc h ih =>
    subst hleft
    obtain ⟨after, rfl⟩ := h.suffix
    obtain ⟨inner, rfl⟩ := hc.suffix
    rw [← List.append_assoc inner, ← List.append_assoc] at hwhole
    obtain ⟨opening, inside, rfl, ho, hi⟩ :=
      Span.exists_of_chars_eq_append (List.append_cancel_right hwhole).symm
    obtain ⟨body, rest, rfl, rfl, rfl⟩ := Span.exists_of_chars_eq_append hi
    obtain ⟨ts, span', hreads⟩ := ih rfl rfl []
    rw [← ho] at hn ht
    exact ⟨_, span', .string ho (by simpa using hn) (by simpa using ht) (by simpa using hc) hreads⟩
  | char hn hs h ih =>
    subst hleft
    obtain ⟨after, rfl⟩ := h.suffix
    rw [← List.cons_append] at hwhole
    obtain ⟨a, u, rfl, rfl, rfl⟩ :=
      Span.exists_of_chars_eq_cons (List.append_cancel_right hwhole).symm
    rw [← Span.chars_append, ← Span.chars_cons] at hn hs
    by_cases hw : a.char ∈ r.whitespace
    · obtain ⟨ts, span', hreads⟩ := ih rfl rfl []
      exact ⟨_, span', .whitespace hn hs hw hreads⟩
    · obtain ⟨ts, span', hreads⟩ := ih rfl rfl (span ++ [a])
      exact ⟨ts, span', .char hn hs hw hreads⟩

/-- **The tokens of a span that is read** come before those of what comes after it. -/
theorem Reads.lexFrom {after span u span' : Span} {ts : List Token}
    (h : r.Reads after span u ts span') :
    r.lexFrom span (u ++ after) = ts ++ r.lexFrom span' after := by
  induction h with
  | nil => rfl
  | comment ho ht hc _ ih =>
    rw [List.append_assoc, List.append_assoc, lexFrom_past_comment ho ht hc, ih, List.append_assoc]
  | string ho hn ht hc _ ih =>
    rw [List.append_assoc, List.append_assoc, lexFrom_past_string ho hn ht hc, ih]
    simp only [List.append_assoc]
  | whitespace hn hs hw _ ih =>
    rw [List.cons_append, lexFrom_whitespace hn hs hw, ih, List.append_assoc]
  | char hn hs hw _ ih => rw [List.cons_append, lexFrom_char hn hs hw, ih]

/-- Where neither a comment nor a string begins, neither does after an exchange. -/
theorem ShutOut.none {a : Located} {rest x y : Span} (hy : r.ShutOut y.chars)
    (hn : r.commentAt (Span.chars (a :: (rest ++ x))) = none)
    (hs : r.stringAt (Span.chars (a :: (rest ++ x))) = none) :
    r.commentAt (Span.chars (a :: (rest ++ y))) = none ∧
      r.stringAt (Span.chars (a :: (rest ++ y))) = none := by
  rw [← List.cons_append, Span.chars_append] at hn hs ⊢
  exact ⟨hy.commentAt hn nofun, hy.stringAt hs nofun⟩

/-- **A span is read in the same way** when what comes after it is exchanged. -/
theorem Reads.exchange {x y span u span' : Span} {ts : List Token} (h : r.Reads x span u ts span')
    (hy : r.ShutOut y.chars) : r.Reads y span u ts span' := by
  induction h with
  | nil => exact .nil
  | @comment t span opening body rest ts span' ho ht hc _ ih =>
    obtain ⟨hmem, -⟩ := commentAt_spec ht
    have ht' := hy.commentAt (u := Span.chars (opening ++ (body ++ rest))) (x := x.chars)
      (by simpa using ht) (by rintro _ ⟨⟩; simp [ho])
    rw [← List.append_assoc, Span.chars_append, Span.chars_append rest] at hc
    have hc' := hc.exchange rfl rfl (hy.comments t hmem).1 (hy.comments t hmem).2
    exact .comment ho (by simpa using ht') (by simpa using hc') ih
  | @string t span opening body rest ts span' ho hn ht hc _ ih =>
    obtain ⟨hmem, -⟩ := stringAt_spec ht
    have hn' := hy.commentAt (u := Span.chars (opening ++ (body ++ rest))) (x := x.chars)
      (by simpa using hn) (by rintro _ ⟨⟩)
    have ht' := hy.stringAt (u := Span.chars (opening ++ (body ++ rest))) (x := x.chars)
      (by simpa using ht) (by rintro _ ⟨⟩; simp [ho])
    rw [← List.append_assoc, Span.chars_append, Span.chars_append rest] at hc
    have hc' := hc.exchange rfl rfl (hy.strings t hmem).1 (hy.strings t hmem).2
    exact .string ho (by simpa using hn') (by simpa using ht') (by simpa using hc') ih
  | whitespace hn hs ha _ ih =>
    obtain ⟨hn', hs'⟩ := hy.none hn hs
    exact .whitespace hn' hs' ha ih
  | char hn hs ha _ ih =>
    obtain ⟨hn', hs'⟩ := hy.none hn hs
    exact .char hn' hs' ha ih

/-- **The tokens of a part that a lexer gets through do not depend on what comes after it**, if no
delimiter extends into that, in one of the two texts. -/
theorem Passes.exchange {whole left : List Char} (h : r.Passes whole left) {u x y : Span}
    (hy : r.ShutOut y.chars) (hwhole : whole = u.chars ++ x.chars) (hleft : left = x.chars)
    (span : Span) :
    ∃ ts span', r.lexFrom span (u ++ x) = ts ++ r.lexFrom span' x ∧
      r.lexFrom span (u ++ y) = ts ++ r.lexFrom span' y := by
  obtain ⟨ts, span', hreads⟩ := h.reads hwhole hleft span
  exact ⟨ts, span', hreads.lexFrom, (hreads.exchange hy).lexFrom⟩

/-- A separating character completes the span before it, and nothing else. -/
theorem Separates.lexFrom_cons {b : Located} (hw : r.Separates b.char) (span v : Span) :
    r.lexFrom span (b :: v) = r.classify span ++ r.lexFrom [] v := by
  have hn : r.commentAt (b.char :: v.chars) = none := by
    refine Option.eq_none_iff_forall_ne_some.mpr fun t ht => ?_
    obtain ⟨hmem, hpre⟩ := commentAt_spec ht
    exact (hw.comments t hmem).1 (List.mem_cons.mpr (.inl (List.cons_prefix_cons.mp hpre).1.symm))
  have hs : r.stringAt (b.char :: v.chars) = none := by
    refine Option.eq_none_iff_forall_ne_some.mpr fun t ht => ?_
    obtain ⟨hmem, hpre⟩ := stringAt_spec ht
    exact (hw.strings t hmem).1 (List.mem_cons.mpr (.inl (List.cons_prefix_cons.mp hpre).1.symm))
  exact lexFrom_whitespace hn hs hw.whitespace span

theorem ClosedComment.lexFrom {m after : List Char} (h : r.ClosedComment after m) (p : Position)
    (span : Span) :
    r.lexFrom span (locate p (m ++ after)) =
      r.classify span ++ r.lexFrom [] (locate (p.advanceOver m) after) := by
  cases h with
  | @intro t body ht hc =>
    rw [locate_append, locate_append, List.append_assoc]
    exact lexFrom_past_comment (chars_locate p _) (by simpa using ht) (by simpa using hc) span

end Rules

/-! ## Texts with a blank or a comment in them -/

namespace LexerConfig

/-- **A text with a blank in it is lexed in two parts**, unless the first one ends inside a comment or
a string. The places in the second part are counted from the place after the blank. -/
theorem tokenize_append [PatternEngine] (c : LexerConfig) {r : Rules} (hc : c.compile = .ok r)
    {w : Char} (hw : r.Separates w) {u : String} (hu : ¬ r.EndsInside u.toList) (v : String) :
    ∃ ts us, c.tokenize u = .ok ts ∧ c.tokenize v = .ok us ∧
      c.tokenize (u ++ String.singleton w ++ v) =
        .ok (ts ++ us.map (Token.relocate (Position.after (u.toList ++ [w])).countedFrom)) := by
  have hpass : r.Passes u.toList [] := Classical.not_not.mp (mt (Rules.endsInside_iff _).mpr hu)
  have hplace : (Position.start.advanceOver u.toList).advance w = .after (u.toList ++ [w]) := by
    rw [Position.after_concat, ← List.nil_append u.toList, ← Position.advanceOver_after]
    rfl
  obtain ⟨ts, span, hx, hy⟩ := hpass.exchange (u := locate .start u.toList) (x := [])
    (y := ⟨w, Position.start.advanceOver u.toList⟩ :: locate (.after (u.toList ++ [w])) v.toList)
    (hw.shutOut _) (by simp) rfl []
  refine ⟨_, _, c.tokenize_eq hc u, c.tokenize_eq hc v, ?_⟩
  have hwhole : locate .start (u ++ String.singleton w ++ v).toList =
      locate .start u.toList ++ ⟨w, Position.start.advanceOver u.toList⟩ ::
        locate (.after (u.toList ++ [w])) v.toList := by
    rw [← hplace]
    simp [locate_append, locate]
  rw [c.tokenize_eq hc, Rules.lex, hwhole, hy, hw.lexFrom_cons, Rules.lexFrom_locate, Rules.lex,
    Rules.lex]
  rw [List.append_nil, Rules.lexFrom] at hx
  rw [hx, List.append_assoc]

theorem lexed_in_two_parts :
    letI := Expr.engine
    let c : LexerConfig := (LexerConfig.addComment {} "/*" "*/" true).addString "S" "'" none
    let ts := [Token.ofType "a" "terminal" ⟨1, 1, 0⟩ ⟨1, 1, 0⟩]
    let us := [Token.ofType "b" "terminal" ⟨1, 1, 0⟩ ⟨1, 1, 0⟩,
      .ofType "'c'" "S" ⟨2, 1, 2⟩ ⟨2, 3, 4⟩]
    let place := Position.after ("a/*'*/".toList ++ [' '])
    ∃ r, c.compile = .ok r ∧ r.Separates ' ' ∧ ¬ r.EndsInside "a/*'*/".toList ∧
      c.tokenize "a/*'*/" = .ok ts ∧ c.tokenize "b\n'c'" = .ok us ∧
      c.tokenize ("a/*'*/" ++ String.singleton ' ' ++ "b\n'c'") =
        .ok (ts ++ us.map (Token.relocate place.countedFrom)) := by
  intro c ts us place
  let : PatternEngine := Expr.engine
  let t : CommentRule := ⟨⟨'/', ['*']⟩, ⟨'*', ['/']⟩, true⟩
  let r : Rules := ⟨" \t\r\n".toList, true, false, [t], [⟨"S", ⟨'\'', []⟩, none⟩], [], [], []⟩
  have hw : r.Separates ' ' := ⟨by decide, by decide, by decide⟩
  have hclose : t.Closes 1 "'*/".toList [] :=
    .char (by decide) (by decide) (.stop (by decide) (.closed []))
  have hpass : r.Passes "a/*'*/".toList [] := .char rfl rfl (.comment (t := t) rfl hclose (.refl []))
  have hu : ¬ r.EndsInside "a/*'*/".toList := fun h => (Rules.endsInside_iff _).mp h hpass
  obtain ⟨ts', us', hts, hus, hboth⟩ := c.tokenize_append rfl hw hu "b\n'c'"
  have hfirst : c.tokenize "a/*'*/" = .ok ts := by cbv
  have hsecond : c.tokenize "b\n'c'" = .ok us := by cbv
  obtain rfl : ts' = ts := Except.ok.inj (hts.symm.trans hfirst)
  obtain rfl : us' = us := Except.ok.inj (hus.symm.trans hsecond)
  exact ⟨r, rfl, hw, hu, hfirst, hsecond, hboth⟩

/-- **A closed comment is worth a blank.** Where a lexer gets to a closed comment, a separating
character in the place of it gives the same contents with the same types. -/
theorem tokenize_comment [PatternEngine] (c : LexerConfig) {r : Rules} (hc : c.compile = .ok r)
    {w : Char} (hw : r.Separates w) {u m v : String} (hu : r.Passes (u ++ m ++ v).toList (m ++ v).toList)
    (hm : r.ClosedComment v.toList m.toList) :
    ∃ ts us, c.tokenize (u ++ m ++ v) = .ok ts ∧
      c.tokenize (u ++ String.singleton w ++ v) = .ok us ∧
      ts.map (fun t => (t.content, t.types)) = us.map fun t => (t.content, t.types) := by
  have hlabels (φ : Position → Position) (ts : List Token) :
      (ts.map (Token.relocate φ)).map (fun t => (t.content, t.types)) =
        ts.map fun t => (t.content, t.types) := by
    rw [List.map_map]
    rfl
  generalize hp : Position.start.advanceOver u.toList = p
  obtain ⟨ts, span, hx, hy⟩ := hu.exchange (u := locate .start u.toList)
    (x := locate p (m ++ v).toList) (y := ⟨w, p⟩ :: locate (p.advance w) v.toList)
    (hw.shutOut _) (by simp) (by simp) []
  refine ⟨_, _, c.tokenize_eq hc _, c.tokenize_eq hc _, ?_⟩
  have hblank : locate .start (u ++ String.singleton w ++ v).toList =
      locate .start u.toList ++ ⟨w, p⟩ :: locate (p.advance w) v.toList := by
    simp [locate_append, locate, hp]
  have hcomment : locate .start (u ++ m ++ v).toList =
      locate .start u.toList ++ locate p (m ++ v).toList := by
    simp [locate_append, hp]
  rw [Rules.lex, Rules.lex, hcomment, hblank, hx, hy, hw.lexFrom_cons, String.toList_append,
    hm.lexFrom, r.lexFrom_locate, r.lexFrom_locate (p.advance w)]
  simp only [List.map_append, hlabels]

theorem comment_worth_a_blank :
    letI := Expr.engine
    let c : LexerConfig := (LexerConfig.addComment {} "/*" "*/" true).addString "S" "'" none
    let front := [Token.ofType "'a'" "S" ⟨1, 1, 0⟩ ⟨1, 3, 2⟩,
      .ofType "b" "terminal" ⟨1, 4, 3⟩ ⟨1, 4, 3⟩]
    let ts := front ++ [.ofType "c" "terminal" ⟨1, 10, 9⟩ ⟨1, 10, 9⟩]
    let us := front ++ [.ofType "c" "terminal" ⟨1, 6, 5⟩ ⟨1, 6, 5⟩]
    ∃ r, c.compile = .ok r ∧ r.Separates ' ' ∧
      r.Passes ("'a'b" ++ "/*'*/" ++ "c").toList ("/*'*/" ++ "c").toList ∧
      r.ClosedComment "c".toList "/*'*/".toList ∧
      c.tokenize ("'a'b" ++ "/*'*/" ++ "c") = .ok ts ∧
      c.tokenize ("'a'b" ++ String.singleton ' ' ++ "c") = .ok us ∧
      ts.map (fun t => (t.content, t.types)) = us.map fun t => (t.content, t.types) := by
  intro c front ts us
  let : PatternEngine := Expr.engine
  let t : CommentRule := ⟨⟨'/', ['*']⟩, ⟨'*', ['/']⟩, true⟩
  let q : StringRule := ⟨"S", ⟨'\'', []⟩, none⟩
  let r : Rules := ⟨" \t\r\n".toList, true, false, [t], [q], [], [], []⟩
  have hw : r.Separates ' ' := ⟨by decide, by decide, by decide⟩
  have hclose : t.Closes 1 "'*/c".toList ['c'] :=
    .char (by decide) (by decide) (.stop (by decide) (.closed ['c']))
  have hm : r.ClosedComment "c".toList "/*'*/".toList := .intro (t := t) rfl hclose
  have hstring : q.Closes "a'b/*'*/c".toList "b/*'*/c".toList :=
    .char nofun (by decide) (.delimiter nofun)
  have hu : r.Passes ("'a'b" ++ "/*'*/" ++ "c").toList ("/*'*/" ++ "c").toList :=
    .string (t := q) rfl rfl hstring (.char rfl rfl (.refl _))
  obtain ⟨ts', us', hts, hus, hsame⟩ := c.tokenize_comment rfl hw hu hm
  have hcomment : c.tokenize ("'a'b" ++ "/*'*/" ++ "c") = .ok ts := by cbv
  have hblank : c.tokenize ("'a'b" ++ String.singleton ' ' ++ "c") = .ok us := by cbv
  obtain rfl : ts' = ts := Except.ok.inj (hts.symm.trans hcomment)
  obtain rfl : us' = us := Except.ok.inj (hus.symm.trans hblank)
  exact ⟨r, rfl, hw, hu, hm, hcomment, hblank, hsame⟩

end LexerConfig

end ParserKit
