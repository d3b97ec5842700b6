import ParserKit.Proofs.Lexer.Lossless

/-!
# Tokens do not depend on where a text lies

* `Located.relocate`, `Span.relocate`, `Token.relocate`: other places for the same characters and
  tokens.
* `Rules.classify_relocate`, **`Rules.lexFrom_relocate`**: a lexer looks at characters only; places
  pass through it.
* `Position.countedFrom`: the places of a text that begins elsewhere.
* **`Rules.lexFrom_locate`**: the tokens of a text that begins elsewhere are its tokens, with their
  places counted from there.
-/

namespace ParserKit

section Relocate

variable (φ : Position → Position)

/-! ## Spans and tokens elsewhere -/

/-- The same character at another place. -/
def Located.relocate (c : Located) : Located := ⟨c.char, φ c.position⟩

@[simp] theorem Located.char_relocate (c : Located) : (c.relocate φ).char = c.char := rfl

def Span.relocate (s : Span) : Span := s.map (Located.relocate φ)

def Token.relocate (t : Token) : Token := { t with start := φ t.start, stop := φ t.stop }

namespace Span

theorem relocate_cons (c : Located) (s : Span) :
    relocate φ (c :: s) = c.relocate φ :: relocate φ s := rfl

theorem relocate_append (s s' : Span) : relocate φ (s ++ s') = relocate φ s ++ relocate φ s' :=
  List.map_append

theorem relocate_take (s : Span) (n : Nat) : relocate φ (s.take n) = (relocate φ s).take n :=
  List.map_take

theorem relocate_drop (s : Span) (n : Nat) : relocate φ (s.drop n) = (relocate φ s).drop n :=
  List.map_drop

@[simp] theorem chars_relocate (s : Span) : (relocate φ s).chars = s.chars := by
  simp only [chars, relocate, List.map_map]
  rfl

theorem token_relocate (type : String) (first : Located) (more : Span) :
    token type (first.relocate φ) (relocate φ more) = (token type first more).relocate φ := by
  have hcontent := congrArg String.ofList (chars_relocate φ (first :: more))
  have hlast := congrArg Located.position
    (List.getLast_map (f := Located.relocate φ) (l := first :: more) (by simp))
  simp only [token, Token.ofType, Token.relocate, Token.mk.injEq]
  exact ⟨hcontent, trivial, trivial, rfl, hlast⟩

theorem tokens_relocate (type : String) (s : Span) :
    tokens type (relocate φ s) = (tokens type s).map (Token.relocate φ) := by
  cases s with
  | nil => rfl
  | cons first more => exact congrArg ([·]) (token_relocate φ type first more)

end Span

@[simp] theorem Marker.begins_relocate (m : Marker) (s : Span) :
    m.begins (s.relocate φ) = m.begins s := by
  simp only [Marker.begins, Span.chars_relocate]

/-! ## Classification -/

theorem Token.addType_relocate (t : Token) (type : String) :
    (t.relocate φ).addType type = (t.addType type).relocate φ := by
  have ht : (t.relocate φ).hasType type = t.hasType type := rfl
  unfold addType
  rw [ht]
  split <;> rfl

theorem Token.foldl_addType_relocate (t : Token) (types : List String) :
    types.foldl addType (t.relocate φ) = (types.foldl addType t).relocate φ := by
  induction types generalizing t with
  | nil => rfl
  | cons type types ih => rw [List.foldl_cons, addType_relocate, ih, List.foldl_cons]

namespace Rules

variable (r : Rules)

theorem split_cons (first : Located) (more : Span) :
    r.split (first :: more) =
      match r.terminalNames (Span.chars (first :: more)) with
      | name :: names => [r.withTerminals (Span.token name first more) names]
      | [] =>
        match r.site (Span.chars (first :: more)) with
        | none => [Span.token terminalName first more]
        | some s =>
          r.split ((first :: more).take s.offset) ++
            Span.tokens s.symbol.name
              (((first :: more).drop s.offset).take s.symbol.sequence.length) ++
            r.split (((first :: more).drop s.offset).drop s.symbol.sequence.length) := by
  rw [split]
  cases r.terminalNames (Span.chars (first :: more)) with
  | cons name names => rfl
  | nil =>
    dsimp only
    split
    · next h => rw [h]
    · next s h => rw [h]; rfl

theorem withTerminals_relocate (t : Token) (names : List String) :
    r.withTerminals (t.relocate φ) names = (r.withTerminals t names).relocate φ := by
  unfold withTerminals
  split
  · exact t.foldl_addType_relocate φ names
  · rfl

theorem split_relocate (s : Span) :
    r.split (s.relocate φ) = (r.split s).map (Token.relocate φ) := by
  fun_induction split r s with
  | case1 =>
    show r.split [] = []
    rw [split]
  | case2 first more name names h =>
    rw [Span.relocate_cons, split_cons, ← Span.relocate_cons, Span.chars_relocate, h]
    dsimp only
    rw [Span.token_relocate, withTerminals_relocate, List.map_singleton]
  | case3 first more h hs =>
    rw [Span.relocate_cons, split_cons, ← Span.relocate_cons, Span.chars_relocate, h, hs]
    dsimp only
    rw [Span.token_relocate, List.map_singleton]
  | case4 first more h s hs _ left right ihl ihr =>
    rw [Span.relocate_cons, split_cons, ← Span.relocate_cons, Span.chars_relocate, h, hs]
    dsimp only
    rw [← Span.relocate_take, ihl, ← Span.relocate_drop, ← Span.relocate_take,
      Span.tokens_relocate, ← Span.relocate_drop, ihr, List.map_append, List.map_append]
    rfl

theorem applyKeyword_relocate (t : Token) :
    r.applyKeyword (t.relocate φ) = (r.applyKeyword t).relocate φ := by
  have ht : r.keywordOf (t.relocate φ).content = r.keywordOf t.content := rfl
  unfold applyKeyword
  rw [ht]
  split
  · rfl
  · split
    · exact t.addType_relocate φ _
    · rfl

/-- **The tokens of a span do not depend on where it lies.** -/
theorem classify_relocate (s : Span) :
    r.classify (s.relocate φ) = (r.classify s).map (Token.relocate φ) := by
  rw [classify, split_relocate, classify, List.map_map, List.map_map]
  exact List.map_congr_left fun t _ => r.applyKeyword_relocate φ t

end Rules

/-! ## Comments, strings and texts -/

theorem CommentRule.close?_relocate (t : CommentRule) (depth : Nat) (text : Span) :
    t.close? depth (text.relocate φ) = (t.close? depth text).map (Span.relocate φ) := by
  fun_induction CommentRule.close? t depth text with
  | case1 =>
    show t.close? _ [] = none
    rw [close?]
  | case2 depth c text hn ih =>
    rw [Span.relocate_cons, close?, ← Span.relocate_cons, Marker.begins_relocate, if_pos hn,
      ← Span.relocate_drop, ih]
  | case3 depth c text hn hs hd =>
    rw [Span.relocate_cons, close?, ← Span.relocate_cons, Marker.begins_relocate,
      Marker.begins_relocate, if_neg hn, if_pos hs, if_pos hd, ← Span.relocate_drop]
    rfl
  | case4 depth c text hn hs hd ih =>
    rw [Span.relocate_cons, close?, ← Span.relocate_cons, Marker.begins_relocate,
      Marker.begins_relocate, if_neg hn, if_pos hs, if_neg hd, ← Span.relocate_drop, ih]
  | case5 depth c text hn hs ih =>
    rw [Span.relocate_cons, close?, ← Span.relocate_cons, Marker.begins_relocate,
      Marker.begins_relocate, if_neg hn, if_neg hs, ih]

theorem StringRule.close?_relocate (t : StringRule) (text : Span) :
    t.close? (text.relocate φ) =
      (t.close? text).map (Prod.map (Span.relocate φ) (Span.relocate φ)) := by
  fun_induction StringRule.close? t text with
  | case1 =>
    show t.close? [] = none
    rw [close?]
  | case2 c text e he ih =>
    rw [Span.relocate_cons, close?, ← Span.relocate_cons]
    simp only [Marker.begins_relocate, he, ← Span.relocate_drop, ih, Option.map_map]
    refine congrArg (Option.map · _) (funext fun x => Prod.ext ?_ rfl)
    show _ = Span.relocate φ (c :: text.take e.more.length ++ x.1)
    rw [Span.relocate_append, Span.relocate_cons, Span.relocate_take]
    rfl
  | case3 c text he hd =>
    rw [Span.relocate_cons, close?, ← Span.relocate_cons]
    simp only [Marker.begins_relocate, he, hd, if_true, ← Span.relocate_take, ← Span.relocate_drop]
    rfl
  | case4 c text he hd ih =>
    rw [Span.relocate_cons, close?, ← Span.relocate_cons]
    simp only [Marker.begins_relocate, he, hd, ih, Option.map_map]
    rfl

namespace Rules

variable (r : Rules)

theorem find?_comment_relocate (c : Located) (text : Span) :
    r.comments.find? (·.start.begins (c.relocate φ :: text.relocate φ)) =
      r.comments.find? (·.start.begins (c :: text)) := by
  simp only [← Span.relocate_cons, Marker.begins_relocate]

theorem find?_string_relocate (c : Located) (text : Span) :
    r.strings.find? (·.delimiter.begins (c.relocate φ :: text.relocate φ)) =
      r.strings.find? (·.delimiter.begins (c :: text)) := by
  simp only [← Span.relocate_cons, Marker.begins_relocate]

/-- **The tokens of a text do not depend on where it lies.** -/
theorem lexFrom_relocate (span text : Span) :
    r.lexFrom (span.relocate φ) (text.relocate φ) =
      (r.lexFrom span text).map (Token.relocate φ) := by
  induction span, text using lexFrom.induct (r := r) with
  | case1 span =>
    show r.lexFrom (span.relocate φ) [] = _
    rw [lexFrom, lexFrom, classify_relocate]
  | case2 span c text t hc ih =>
    have hc' := (r.find?_comment_relocate φ c text).trans hc
    rw [Span.relocate_cons, lexFrom_comment hc', lexFrom_comment hc, ← Span.relocate_cons,
      ← Span.relocate_drop, classify_relocate, List.map_append]
    simp only [outlook, CommentRule.close?_relocate]
    cases hr : t.close? 1 ((c :: text).drop t.start.length) with
    | none => rfl
    | some rest => exact congrArg (_ ++ ·) (ih rest hr)
  | case3 span c text hc t hs ih =>
    have hc' := (r.find?_comment_relocate φ c text).trans hc
    have hs' := (r.find?_string_relocate φ c text).trans hs
    rw [Span.relocate_cons, lexFrom_string hc' hs', lexFrom_string hc hs, ← Span.relocate_cons,
      ← Span.relocate_drop, ← Span.relocate_take, classify_relocate, List.map_append]
    simp only [outlook, StringRule.close?_relocate]
    cases hr : t.close? ((c :: text).drop t.delimiter.length) with
    | none => rfl
    | some p =>
      obtain ⟨body, rest⟩ := p
      simp only [Option.map_some, Prod.map_apply, List.map_append]
      rw [← Span.relocate_append, Span.tokens_relocate]
      exact congrArg (fun ts => _ ++ (_ ++ ts)) (ih body rest hr)
  | case4 span c text hc hs hw ih =>
    have hc' := (r.find?_comment_relocate φ c text).trans hc
    have hs' := (r.find?_string_relocate φ c text).trans hs
    rw [Span.relocate_cons, lexFrom_whitespace hc' hs' hw, lexFrom_whitespace hc hs hw,
      classify_relocate, List.map_append]
    exact congrArg (_ ++ ·) ih
  | case5 span c text hc hs hw ih =>
    have hc' := (r.find?_comment_relocate φ c text).trans hc
    have hs' := (r.find?_string_relocate φ c text).trans hs
    rw [Span.relocate_cons, lexFrom_char hc' hs' hw, lexFrom_char hc hs hw, ← ih,
      Span.relocate_append]
    rfl

end Rules

end Relocate

/-! ## Texts that begin elsewhere -/

namespace Position

/-- Lines and columns count from one. -/
structure Counts (p : Position) : Prop where
  line_pos : 1 ≤ p.line
  column_pos : 1 ≤ p.column

theorem counts_start : start.Counts := ⟨Nat.le_refl 1, Nat.le_refl 1⟩

theorem Counts.advance {p : Position} (h : p.Counts) (c : Char) : (p.advance c).Counts := by
  unfold Position.advance
  split
  · exact ⟨Nat.le_succ_of_le h.line_pos, Nat.le_refl 1⟩
  · exact ⟨h.line_pos, Nat.le_succ_of_le h.column_pos⟩

/-- The place of a character of a text that begins at `p`, where it would lie at `q` if the text
began at the start: the first line of the text goes on with the line of `p`. -/
def countedFrom (p q : Position) : Position :=
  ⟨p.line + q.line - 1, if q.line ≤ 1 then p.column + q.column - 1 else q.column,
    p.offset + q.offset⟩

theorem countedFrom_start (p : Position) : p.countedFrom start = p := by
  simp only [countedFrom, start, Nat.le_refl, if_true, Nat.add_sub_cancel, Nat.add_zero]

theorem countedFrom_advance {q : Position} (h : q.Counts) (p : Position) (c : Char) :
    p.countedFrom (q.advance c) = (p.countedFrom q).advance c := by
  obtain ⟨hl, hc⟩ := h
  unfold Position.advance countedFrom
  by_cases hn : c = '\n'
  · simp only [if_pos hn, mk.injEq]
    exact ⟨by omega, if_neg (by omega), by omega⟩
  · simp only [if_neg hn, mk.injEq]
    refine ⟨trivial, ?_, by omega⟩
    split <;> omega

end Position

theorem relocate_locate {q : Position} (h : q.Counts) (p : Position) (text : List Char) :
    (locate q text).relocate p.countedFrom = locate (p.countedFrom q) text := by
  induction text generalizing q with
  | nil => rfl
  | cons c text ih =>
    rw [locate, Span.relocate_cons, ih (h.advance c), Position.countedFrom_advance h]
    rfl

/-- **The tokens of a text that begins elsewhere**, with their places counted from there. -/
theorem Rules.lexFrom_locate (r : Rules) (p : Position) (text : List Char) :
    r.lexFrom [] (locate p text) =
      (r.lexFrom [] (locate .start text)).map (Token.relocate p.countedFrom) := by
  rw [← lexFrom_relocate, relocate_locate Position.counts_start, p.countedFrom_start]
  rfl

end ParserKit
