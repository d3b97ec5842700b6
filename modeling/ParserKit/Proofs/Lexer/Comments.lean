import Mathlib.Data.Nat.Find
import ParserKit.Proofs.Lexer.Separation

/-!
# Where comments end

* `CommentRule.Body`: by a grammar, what lies between the start and the end of a nested comment;
  `CommentRule.Bodies`: several of them, each with its end.
* `CommentRule.Closes.bodies`, `CommentRule.Body.closes`: counting the starts that are open is reading
  by the grammar.
* `CommentRule.Ends`: what a comment that is closed consists of; **`CommentRule.closes_iff_ends`**:
  where the lexer finds the end.
* **`LexerConfig.tokenize_commentEnd`**: the tokens of a text with a comment in it.
-/

namespace ParserKit

namespace CommentRule

/-! ## Nested comments, by a grammar -/

/-- **What lies between the start and the end of a nested comment**, where `after` comes next: nothing,
a character and more of it, or a comment and more of it. An end is taken only where no start is
recognised, and a single character only where neither is. -/
inductive Body (t : CommentRule) : List Char → List Char → Prop
  | nil (after) : t.Body [] after
  | char {c body after} (hs : ¬ t.start.chars <+: c :: (body ++ after))
      (he : ¬ t.stop.chars <+: c :: (body ++ after)) (h : t.Body body after) :
      t.Body (c :: body) after
  | comment {inner body after} (hi : t.Body inner (t.stop.chars ++ (body ++ after)))
      (hs : ¬ t.start.chars <+: t.stop.chars ++ (body ++ after)) (h : t.Body body after) :
      t.Body (t.start.chars ++ (inner ++ (t.stop.chars ++ body))) after

/-- **As many bodies as there are starts open**, each with its end. -/
inductive Bodies (t : CommentRule) : Nat → List Char → List Char → Prop
  | closed (left) : t.Bodies 0 left left
  | body {depth body text left} (hb : t.Body body (t.stop.chars ++ text))
      (hs : ¬ t.start.chars <+: t.stop.chars ++ text) (h : t.Bodies depth text left) :
      t.Bodies (depth + 1) (body ++ (t.stop.chars ++ text)) left

variable {t : CommentRule}

/-- **Where the open starts are counted down to none**, as many bodies have been read. -/
theorem Closes.bodies {depth : Nat} {text left : List Char} (h : t.Closes depth text left)
    (hn : t.nested = true) : t.Bodies depth text left := by
  induction h with
  | closed left => exact .closed left
  | start _ _ ih =>
    -- the body of the start, its end and the next body are one body
    cases ih with
    | body hi hs h =>
      cases h with
      | @body _ body text _ hb hs' h =>
        have hbody := Body.comment hi hs hb
        simpa using Bodies.body hbody hs' h
  | stop hs _ ih => exact .body (.nil _) (fun hp => hs ⟨hn, hp⟩) ih
  | char hs he _ ih =>
    cases ih with
    | body hb hs' h => exact .body (.char (fun hp => hs ⟨hn, hp⟩) he hb) hs' h

/-- **A body changes nothing in the number of open starts.** -/
theorem Body.closes {body after left : List Char} (h : t.Body body after) (hn : t.nested = true)
    {depth : Nat} (hc : t.Closes (depth + 1) after left) :
    t.Closes (depth + 1) (body ++ after) left := by
  induction h generalizing depth left with
  | nil => exact hc
  | char hs he _ ih => exact .char (fun hp => hs hp.2) he (ih hc)
  | comment _ hs _ ihi ih =>
    have hinner := ihi (.stop (fun hp => hs hp.2) (ih hc))
    simpa using Closes.start hn hinner

/-! ## Where a comment ends -/

/-- **A comment ends**, where `text` comes after its start: `inner` is what lies between its start and
its end, and `left` what comes after both. One that is not nested ends with the first end, and one
that is nested ends with the end of a body. -/
structure Ends (t : CommentRule) (text inner left : List Char) : Prop where
  text_eq : text = inner ++ (t.stop.chars ++ left)
  first : t.nested = false → ∀ k < inner.length, ¬ t.stop.chars <+: text.drop k
  body : t.nested = true → t.Body inner (t.stop.chars ++ left)
  last : t.nested = true → ¬ t.start.chars <+: t.stop.chars ++ left

variable {text inner left : List Char}

/-- A comment that is not nested ends with the first end. -/
theorem Closes.first_stop (h : t.Closes 1 text left) (hn : t.nested = false) :
    ∃ inner, text = inner ++ (t.stop.chars ++ left) ∧
      ∀ k < inner.length, ¬ t.stop.chars <+: text.drop k := by
  generalize hd : 1 = depth at h
  induction h with
  | closed => cases hd
  | start hn' => rw [hn] at hn'; cases hn'
  | @stop depth _ _ _ h =>
    obtain rfl : depth = 0 := by omega
    cases h
    exact ⟨[], rfl, nofun⟩
  | @char _ c text left _ he _ ih =>
    obtain ⟨inner, rfl, hfirst⟩ := ih hd
    refine ⟨c :: inner, rfl, fun k hk => ?_⟩
    cases k with
    | zero => exact he
    | succ k => exact hfirst k (Nat.lt_of_succ_lt_succ hk)

theorem closes_of_first_stop (hn : t.nested = false)
    (h : ∀ k < inner.length, ¬ t.stop.chars <+: (inner ++ (t.stop.chars ++ left)).drop k) :
    t.Closes 1 (inner ++ (t.stop.chars ++ left)) left := by
  have hno {P : Prop} : ¬ (t.nested = true ∧ P) := fun hp => by rw [hn] at hp; cases hp.1
  induction inner with
  | nil => exact .stop hno (.closed left)
  | cons c inner ih =>
    refine .char hno (h 0 (Nat.succ_pos _)) (ih fun k hk => ?_)
    exact h (k + 1) (Nat.succ_lt_succ hk)

/-- **The lexer finds the end of a comment** where one is. -/
theorem closes_iff_ends : t.Closes 1 text left ↔ ∃ inner, t.Ends text inner left := by
  cases hn : t.nested with
  | false =>
    constructor
    · intro h
      obtain ⟨inner, htext, hfirst⟩ := h.first_stop hn
      exact ⟨inner, htext, fun _ => hfirst, by simp [hn], by simp [hn]⟩
    · rintro ⟨inner, h⟩
      have hfirst := h.first hn
      rw [h.text_eq] at hfirst ⊢
      exact closes_of_first_stop hn hfirst
  | true =>
    constructor
    · intro h
      cases h.bodies hn with
      | @body _ inner _ _ hb hs h =>
        cases h
        exact ⟨inner, rfl, by simp [hn], fun _ => hb, fun _ => hs⟩
    · rintro ⟨inner, h⟩
      rw [h.text_eq]
      exact (h.body hn).closes hn (.stop (fun hp => h.last hn hp.2) (.closed left))

/-- **A comment ends in one way only.** -/
theorem Ends.unique {inner' left' : List Char} (h : t.Ends text inner left)
    (h' : t.Ends text inner' left') : inner = inner' ∧ left = left' := by
  obtain rfl : left = left' :=
    (closes_iff_ends.mpr ⟨inner, h⟩).unique (closes_iff_ends.mpr ⟨inner', h'⟩) Nat.one_pos
  refine ⟨List.append_cancel_right (h.text_eq.symm.trans h'.text_eq), rfl⟩

/-- Where the end begins with the start, no end is taken in a nested comment. -/
theorem not_ends_of_start_prefix_stop (hn : t.nested = true) (h : t.start.chars <+: t.stop.chars) :
    ¬ t.Ends text inner left := fun he => he.last hn (h.trans (List.prefix_append _ _))

theorem exists_ends_iff (hn : t.nested = false) :
    (∃ inner left, t.Ends text inner left) ↔ t.stop.chars <:+: text := by
  constructor
  · rintro ⟨inner, left, h⟩
    exact ⟨inner, left, by rw [h.text_eq, List.append_assoc]⟩
  · intro h
    obtain ⟨rest, hprefix, hsuffix⟩ := List.infix_iff_prefix_suffix.mp h
    have hex : ∃ k, t.stop.chars <+: text.drop k :=
      ⟨_, List.suffix_iff_eq_drop.mp hsuffix ▸ hprefix⟩
    obtain ⟨left, hleft⟩ := Nat.find_spec hex
    refine ⟨text.take (Nat.find hex), left, ?_, fun _ k hk => ?_, by simp [hn], by simp [hn]⟩
    · rw [hleft, List.take_append_drop]
    · exact Nat.find_min hex (Nat.lt_of_lt_of_le hk (List.length_take_le _ _))

end CommentRule

namespace Rules

variable {r : Rules}

theorem lexFrom_of_not_closes {t : CommentRule} {body : List Char}
    (ht : r.commentAt (t.start.chars ++ body) = some t) (h : ∀ left, ¬ t.Closes 1 body left)
    (p : Position) (span : Span) :
    r.lexFrom span (locate p (t.start.chars ++ body)) = r.classify span := by
  have hchars : (locate p (t.start.chars ++ body)).chars = t.start.chars ++ body := chars_locate p _
  obtain ⟨a, s, hs, hb, hbody⟩ := Marker.begins_of_chars hchars
  have hfind : r.comments.find? (·.start.begins (a :: s)) = some t := by
    rw [← hchars, hs] at ht
    exact ht
  have hclose : t.close? 1 ((a :: s).drop t.start.length) = none := by
    refine Option.eq_none_iff_forall_ne_some.mpr fun left hleft => ?_
    exact h left.chars (hbody ▸ CommentRule.closes_of_close? hleft)
  rw [hs, lexFrom_comment hfind, outlook, hclose]
  exact List.append_nil _

end Rules

/-! ## Texts with a comment in them -/

namespace LexerConfig

/-- **Where a comment ends.** A lexer gets to a comment, with `rest` after its start. The tokens before
it are those of what comes before it. If the comment ends, the tokens after it are those of what
comes after its end, with their places counted from there. It ends in one way only, which therefore
is the shortest. If it does not end, there are no tokens after its start. So it is with a nested
comment whose end begins with its start. -/
theorem tokenize_commentEnd [PatternEngine] (c : LexerConfig) {r : Rules} (hc : c.compile = .ok r)
    {text : String} {before rest : List Char} {t : CommentRule}
    (htext : text.toList = before ++ (t.start.chars ++ rest))
    (hp : r.Passes text.toList (t.start.chars ++ rest))
    (ht : r.commentAt (t.start.chars ++ rest) = some t) :
    (∀ inner left, t.Ends rest inner left →
      (∀ inner' left', t.Ends rest inner' left' → inner' = inner ∧ left' = left) ∧
      c.tokenize text = .ok (r.lex (String.ofList before) ++
        (r.lex (String.ofList left)).map (Token.relocate
          (Position.after (before ++ (t.start.chars ++ (inner ++ t.stop.chars)))).countedFrom))) ∧
    ((∀ inner left, ¬ t.Ends rest inner left) →
      c.tokenize text = .ok (r.lex (String.ofList before))) ∧
    (t.nested = false → ((∃ inner left, t.Ends rest inner left) ↔ t.stop.chars <:+: rest)) ∧
    (t.nested = true → t.start.chars <+: t.stop.chars →
      c.tokenize text = .ok (r.lex (String.ofList before))) := by
  have hplace : Position.start.advanceOver before = .after before :=
    Position.advanceOver_after [] before
  have hwhole : locate .start text.toList =
      locate .start before ++ locate (.after before) (t.start.chars ++ rest) := by
    rw [htext, locate_append, hplace]
  -- what comes before the comment is read in the same way without the comment
  obtain ⟨ts, span, hcomment, hbefore⟩ := hp.exchange (u := locate .start before)
    (x := locate (.after before) (t.start.chars ++ rest)) (y := []) r.shutOut_nil
    (by rw [htext, chars_locate, chars_locate]) (chars_locate _ _).symm []
  rw [List.append_nil, Rules.lexFrom] at hbefore
  have hlex : r.lex (String.ofList before) = ts ++ r.classify span := by
    rw [Rules.lex, String.toList_ofList, hbefore]
  rw [hlex]
  have hopen : (∀ inner left, ¬ t.Ends rest inner left) →
      c.tokenize text = .ok (ts ++ r.classify span) := by
    intro hno
    rw [c.tokenize_eq hc, Rules.lex, hwhole, hcomment, Rules.lexFrom_of_not_closes ht]
    intro left hcloses
    obtain ⟨inner, hends⟩ := CommentRule.closes_iff_ends.mp hcloses
    exact hno inner left hends
  refine ⟨fun inner left hends => ⟨fun inner' left' h' => h'.unique hends, ?_⟩, hopen,
    CommentRule.exists_ends_iff, fun hn hstart => hopen fun _ _ => ?_⟩
  · have hcloses := CommentRule.closes_iff_ends.mpr ⟨inner, hends⟩
    have hrest : t.start.chars ++ rest = t.start.chars ++ (inner ++ t.stop.chars) ++ left := by
      rw [hends.text_eq, List.append_assoc, List.append_assoc]
    rw [hends.text_eq, ← List.append_assoc] at hcloses
    have hclosed : r.ClosedComment left (t.start.chars ++ (inner ++ t.stop.chars)) :=
      .intro (hrest ▸ ht) hcloses
    rw [c.tokenize_eq hc, Rules.lex, hwhole, hcomment, hrest, hclosed.lexFrom,
      Rules.lexFrom_locate, Position.advanceOver_after, List.append_assoc, Rules.lex,
      String.toList_ofList]
  · exact CommentRule.not_ends_of_start_prefix_stop hn hstart

theorem commentEnd_of_nested_comment :
    letI := Expr.engine
    let c : LexerConfig := LexerConfig.addComment {} "/*" "*/" true
    let t : CommentRule := ⟨⟨'/', ['*']⟩, ⟨'*', ['/']⟩, true⟩
    let text := "a/*b/*c*/*/d"
    let rest := "b/*c*/*/d".toList
    ∃ r, c.compile = .ok r ∧ text.toList = ['a'] ++ (t.start.chars ++ rest) ∧
      r.Passes text.toList (t.start.chars ++ rest) ∧
      r.commentAt (t.start.chars ++ rest) = some t ∧ t.Ends rest "b/*c*/".toList ['d'] ∧
      c.tokenize text = .ok [.ofType "a" "terminal" ⟨1, 1, 0⟩ ⟨1, 1, 0⟩,
        .ofType "d" "terminal" ⟨1, 12, 11⟩ ⟨1, 12, 11⟩] := by
  intro c t text rest
  let : PatternEngine := Expr.engine
  let r : Rules := ⟨" \t\r\n".toList, true, false, [t], [], [], [], []⟩
  have htext : text.toList = ['a'] ++ (t.start.chars ++ rest) := by decide
  have hp : r.Passes text.toList (t.start.chars ++ rest) := by
    rw [htext]
    exact .char rfl rfl (.refl _)
  have hc : t.Body ['c'] "*/*/d".toList := .char (by decide) (by decide) (.nil _)
  have hnested : t.Body "/*c*/".toList "*/d".toList := .comment hc (by decide) (.nil _)
  have hinner : t.Body "b/*c*/".toList "*/d".toList := .char (by decide) (by decide) hnested
  have hends : t.Ends rest "b/*c*/".toList ['d'] :=
    { text_eq := by decide, first := by decide, body := fun _ => hinner, last := by decide }
  have htokens := ((c.tokenize_commentEnd (r := r) rfl htext hp rfl).1 _ _ hends).2
  have hbefore : r.lex (String.ofList ['a']) = [.ofType "a" "terminal" ⟨1, 1, 0⟩ ⟨1, 1, 0⟩] := by
    cbv
  have hleft : r.lex (String.ofList ['d']) = [.ofType "d" "terminal" ⟨1, 1, 0⟩ ⟨1, 1, 0⟩] := by
    cbv
  rw [hbefore, hleft] at htokens
  exact ⟨r, rfl, htext, hp, rfl, hends, htokens⟩

end LexerConfig

end ParserKit
